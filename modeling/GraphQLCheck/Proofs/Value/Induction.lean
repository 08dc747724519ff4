/-
  GraphQLCheck.Proofs.Value.Induction
  ───────────────────────────────────
  Induction on literals and on runtime values, with the hypothesis at every part.

  Both kinds of values hold lists of themselves, so what recurses on them comes as three functions
  that call each other: for a value, for the items of a list, for the fields of an object.  The two
  principles here have one motive instead, and one case for all values without parts: no evaluation and
  no check looks into these.
-/
import GraphQLCheck.Language.Literal

namespace GraphQLCheck

/-! ## §1. Literals. -/

/-- Whether a literal is a value of its own, without parts: it is neither null nor a variable. -/
def Literal.isPlain : Literal → Bool
  | .int _ | .float _ | .string _ | .boolean _ | .enum _ => true
  | .null | .list _ | .object _ | .variable _ => false

/-- Induction on a literal, with the hypothesis at every item and at every field. -/
@[elab_as_elim, induction_eliminator]
theorem Literal.induction {motive : Literal → Prop} (null : motive .null)
    (var : ∀ name, motive (.variable name))
    (plain : ∀ literal, literal.isPlain = true → motive literal)
    (list : ∀ items, (∀ item ∈ items, motive item) → motive (.list items))
    (object : ∀ fields, (∀ field ∈ fields, motive field.2) → motive (.object fields)) :
    (literal : Literal) → motive literal
  | .null => null
  | .variable name => var name
  | .int i => plain (.int i) rfl
  | .float x => plain (.float x) rfl
  | .string s => plain (.string s) rfl
  | .boolean b => plain (.boolean b) rfl
  | .enum name => plain (.enum name) rfl
  | .list items => list items fun item _ => induction null var plain list object item
  | .object fields => object fields fun field _ => induction null var plain list object field.2
termination_by literal => sizeOf literal
decreasing_by
  · have hitem := List.sizeOf_lt_of_mem ‹item ∈ items›
    rw [Literal.list.sizeOf_spec]
    omega
  · have hfield := List.sizeOf_lt_of_mem ‹field ∈ fields›
    obtain ⟨name, value⟩ := field
    rw [Literal.object.sizeOf_spec]
    rw [Prod.mk.sizeOf_spec] at hfield
    show sizeOf value < _
    omega

/-! ## §2. Runtime values. -/

/-- Whether a runtime value has no parts and is not null. -/
def Json.isPlain : Json → Bool
  | .bool _ | .number _ | .string _ => true
  | .null | .array _ | .object _ => false

/-- Induction on a runtime value, with the hypothesis at every item and at every entry. -/
@[elab_as_elim, induction_eliminator]
theorem Json.induction {motive : Json → Prop} (null : motive .null)
    (plain : ∀ value, value.isPlain = true → motive value)
    (array : ∀ items, (∀ item ∈ items, motive item) → motive (.array items))
    (object : ∀ entries, (∀ entry ∈ entries, motive entry.2) → motive (.object entries)) :
    (value : Json) → motive value
  | .null => null
  | .bool b => plain (.bool b) rfl
  | .number n => plain (.number n) rfl
  | .string s => plain (.string s) rfl
  | .array items => array items fun item _ => induction null plain array object item
  | .object entries => object entries fun entry _ => induction null plain array object entry.2
termination_by value => sizeOf value
decreasing_by
  · have hitem := List.sizeOf_lt_of_mem ‹item ∈ items›
    rw [Json.array.sizeOf_spec]
    omega
  · have hentry := List.sizeOf_lt_of_mem ‹entry ∈ entries›
    obtain ⟨name, value⟩ := entry
    rw [Json.object.sizeOf_spec]
    rw [Prod.mk.sizeOf_spec] at hentry
    show sizeOf value < _
    omega

theorem Json.isNull_eq_false_of_isPlain {value : Json} (h : value.isPlain = true) :
    value.isNull = false := by
  cases value <;> first | rfl | cases h

theorem Json.isNull_iff {value : Json} : value.isNull = true ↔ value = .null := by
  cases value <;> simp [isNull]

end GraphQLCheck
