/-
  GraphQLCheck.Proofs.Value.Nesting
  ─────────────────────────────────
  What the text of a runtime value asks of its reader.

  A reader counts the arrays and objects that are open at a time, and it computes doubles from their
  digits.  So whether the text of a value can be read back depends on how deep the value is nested, and on
  the doubles in it.

      Json.nesting — the greatest number of arrays and objects around a part, itself included
      Json.doubles — the doubles that occur
-/
import GraphQLCheck.Proofs.Value.Induction

namespace GraphQLCheck

namespace Json

/-! ## §1. Nesting. -/

mutual
/-- How deep arrays and objects are nested in a value. -/
def nesting : Json → Nat
  | .array items => itemsNesting items + 1
  | .object entries => entriesNesting entries + 1
  | .null | .bool _ | .number _ | .string _ => 0
/-- How deep they are nested in the items of an array. -/
def itemsNesting : List Json → Nat
  | [] => 0
  | item :: items => max item.nesting (itemsNesting items)
/-- How deep they are nested in the entries of an object. -/
def entriesNesting : List (String × Json) → Nat
  | [] => 0
  | (_, value) :: entries => max value.nesting (entriesNesting entries)
end

theorem nesting_array_le_iff {items : List Json} {levels : Nat} :
    (Json.array items).nesting ≤ levels + 1 ↔ ∀ item ∈ items, item.nesting ≤ levels := by
  have hitems : itemsNesting items ≤ levels ↔ ∀ item ∈ items, item.nesting ≤ levels := by
    induction items with
    | nil => simp [itemsNesting]
    | cons item items ih => rw [itemsNesting, Nat.max_le, ih, List.forall_mem_cons]
  show itemsNesting items + 1 ≤ levels + 1 ↔ _
  rw [Nat.add_le_add_iff_right, hitems]

theorem nesting_object_le_iff {entries : List (String × Json)} {levels : Nat} :
    (Json.object entries).nesting ≤ levels + 1 ↔ ∀ entry ∈ entries, entry.2.nesting ≤ levels := by
  have hentries : entriesNesting entries ≤ levels ↔ ∀ entry ∈ entries, entry.2.nesting ≤ levels := by
    induction entries with
    | nil => simp [entriesNesting]
    | cons entry entries ih => rw [entriesNesting, Nat.max_le, ih, List.forall_mem_cons]
  show entriesNesting entries + 1 ≤ levels + 1 ↔ _
  rw [Nat.add_le_add_iff_right, hentries]

/-- Where an array fits into a number of levels, its items fit into one level less. -/
theorem exists_of_nesting_array_le {items : List Json} {levels : Nat} (h : (Json.array items).nesting ≤ levels) :
    ∃ inner, levels = inner + 1 ∧ ∀ item ∈ items, item.nesting ≤ inner := by
  cases levels with
  | zero => exact absurd h (Nat.not_succ_le_zero _)
  | succ inner => exact ⟨inner, rfl, nesting_array_le_iff.1 h⟩

/-- Where an object fits into a number of levels, the values in it fit into one level less. -/
theorem exists_of_nesting_object_le {entries : List (String × Json)} {levels : Nat}
    (h : (Json.object entries).nesting ≤ levels) :
    ∃ inner, levels = inner + 1 ∧ ∀ entry ∈ entries, entry.2.nesting ≤ inner := by
  cases levels with
  | zero => exact absurd h (Nat.not_succ_le_zero _)
  | succ inner => exact ⟨inner, rfl, nesting_object_le_iff.1 h⟩

/-- An item is nested less deeply than its array. -/
theorem nesting_item_lt {items : List Json} {item : Json} (h : item ∈ items) :
    item.nesting < (Json.array items).nesting :=
  Nat.lt_succ_of_le (nesting_array_le_iff.1 (Nat.le_refl (itemsNesting items + 1)) item h)

/-- The value of an entry is nested less deeply than its object. -/
theorem nesting_entry_lt {entries : List (String × Json)} {key : String} {value : Json}
    (h : (key, value) ∈ entries) : value.nesting < (Json.object entries).nesting :=
  Nat.lt_succ_of_le (nesting_object_le_iff.1 (Nat.le_refl (entriesNesting entries + 1)) (key, value) h)

/-! ## §2. Doubles. -/

mutual
/-- The doubles in a value, in order. -/
def doubles : Json → List FiniteDouble
  | .number (.float x) => [x]
  | .array items => itemsDoubles items
  | .object entries => entriesDoubles entries
  | .null | .bool _ | .number (.integer _) | .string _ => []
/-- The doubles in the items of an array. -/
def itemsDoubles : List Json → List FiniteDouble
  | [] => []
  | item :: items => item.doubles ++ itemsDoubles items
/-- The doubles in the entries of an object. -/
def entriesDoubles : List (String × Json) → List FiniteDouble
  | [] => []
  | (_, value) :: entries => value.doubles ++ entriesDoubles entries
end

theorem mem_doubles_array {items : List Json} {x : FiniteDouble} :
    x ∈ (Json.array items).doubles ↔ ∃ item ∈ items, x ∈ item.doubles := by
  show x ∈ itemsDoubles items ↔ _
  induction items with
  | nil => simp [itemsDoubles]
  | cons item items ih => simp [itemsDoubles, ih]

theorem mem_doubles_object {entries : List (String × Json)} {x : FiniteDouble} :
    x ∈ (Json.object entries).doubles ↔ ∃ entry ∈ entries, x ∈ entry.2.doubles := by
  show x ∈ entriesDoubles entries ↔ _
  induction entries with
  | nil => simp [entriesDoubles]
  | cons entry entries ih => simp [entriesDoubles, ih]

end Json

end GraphQLCheck
