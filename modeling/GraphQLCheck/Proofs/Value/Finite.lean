/-
  GraphQLCheck.Proofs.Value.Finite
  ────────────────────────────────
  Values whose numbers have a finite double beside them.

  An integer of 64 bits always has one, and a double that is infinite or not a number has none.  Such a
  double has no runtime value either: it becomes null there, so nothing that is said of null or not null
  holds unless the numbers of a literal are finite.

      Literal.isFinite — integers of 64 bits, and doubles that are finite
      Json.isSized     — integers of 64 bits; a double of a runtime value is always finite

  Main facts: `Double.ofInt_eq_finite` (an integer of 64 bits is no infinite double) and
  `Literal.toJson?_ne_null` (a finite literal that is not null has no runtime value null).
-/
import GraphQLCheck.Number.Width
import GraphQLCheck.Proofs.Value.Induction

namespace GraphQLCheck

/-! ## §1. Doubles of integers. -/

/-- A shift moves the highest binary digit up by as many places. -/
theorem Double.log2_shift_le {n : Nat} (h : n < 18446744073709551616) (places : Nat) :
    (n * Nat.pow 2 places).log2 ≤ 63 + places := by
  -- the logarithm of zero is no bound on its digits
  by_cases hzero : n * Nat.pow 2 places = 0
  · rw [hzero]
    exact Nat.zero_le _
  · have hpow : Nat.pow 2 (64 + places) = 18446744073709551616 * Nat.pow 2 places :=
      Nat.pow_add 2 64 places
    have hlt : n * Nat.pow 2 places < Nat.pow 2 (64 + places) := by
      rw [hpow]
      exact Nat.mul_lt_mul_of_pos_right h (Nat.two_pow_pos places)
    have hlog := (Nat.log2_lt hzero).2 hlt
    omega

/-- One is a power of two of units; the exponent is a name here, so that nothing computes the power. -/
theorem unitsPerOne_eq : ∃ places, places = 1074 ∧ unitsPerOne = Nat.pow 2 places := by
  refine ⟨_, rfl, ?_⟩
  unfold unitsPerOne
  rfl

/-- An integer of 64 bits needs no scale beyond those of the finite doubles. -/
theorem Double.scaleOf_units_le {n : Nat} (h : n < 18446744073709551616) :
    Double.scaleOf (n * unitsPerOne) 1 ≤ 1085 := by
  obtain ⟨places, hplaces, hunits⟩ := unitsPerOne_eq
  have hlog := Double.log2_shift_le h places
  rw [← hunits] at hlog
  unfold Double.scaleOf
  rw [Nat.div_one]
  omega

/-- An integer of 64 bits is within the range of the doubles. -/
theorem Double.ofInt_eq_finite {i : Int} (h : i.natAbs < 18446744073709551616) :
    ∃ x, Double.ofInt i = .finite x := by
  have hscale := Double.scaleOf_units_le h
  unfold Double.ofInt Double.ofRatio Double.ofUnitRatio
  simp only []
  rw [dif_neg (by omega)]
  split
  · exact ⟨_, rfl⟩
  · rw [dif_neg (by omega)]
    exact ⟨_, rfl⟩

theorem Double.eq_finite_of_isSome {x : Double} (h : x.finite?.isSome = true) :
    ∃ y, x = .finite y := by
  cases x with
  | finite y => exact ⟨y, rfl⟩
  | infinite negative => cases h
  | notANumber => cases h

theorem natAbs_lt_of_fitsInt64 {i : Int} (h : fitsInt64 i = true) :
    i.natAbs < 18446744073709551616 := by
  unfold fitsInt64 at h
  simp only [Bool.and_eq_true, decide_eq_true_eq] at h
  omega

/-! ## §2. Literals. -/

mutual
/-- Whether every number in the literal is finite: integers have 64 bits with a sign, and no double is
infinite or not a number. -/
def Literal.isFinite : Literal → Bool
  | .int i => fitsInt64 i
  | .float x => x.finite?.isSome
  | .list items => itemsFinite items
  | .object fields => fieldsFinite fields
  | .null | .string _ | .boolean _ | .enum _ | .variable _ => true
/-- Whether every number in the items of a list is finite. -/
def Literal.itemsFinite : List Literal → Bool
  | [] => true
  | item :: items => item.isFinite && itemsFinite items
/-- Whether every number in the fields of an object is finite. -/
def Literal.fieldsFinite : List (String × Literal) → Bool
  | [] => true
  | (_, value) :: fields => value.isFinite && fieldsFinite fields
end

namespace Literal

theorem isFinite_list_iff {items : List Literal} :
    (Literal.list items).isFinite = true ↔ ∀ item ∈ items, item.isFinite = true := by
  show itemsFinite items = true ↔ _
  induction items with
  | nil => simp [itemsFinite]
  | cons item items ih => simp [itemsFinite, ih]

theorem isFinite_object_iff {fields : List (String × Literal)} :
    (Literal.object fields).isFinite = true ↔ ∀ field ∈ fields, field.2.isFinite = true := by
  show fieldsFinite fields = true ↔ _
  induction fields with
  | nil => simp [fieldsFinite]
  | cons field fields ih => simp [fieldsFinite, ih]

/-- What is finite and not null has no runtime value null. -/
theorem toJson?_ne_null {literal : Literal} (hfinite : literal.isFinite = true)
    (hnull : literal.isNull = false) : literal.toJson? ≠ some .null := by
  cases literal with
  | null => cases hnull
  | float x =>
    cases x with
    | finite x => simp [toJson?, Json.ofDouble]
    | infinite negative => cases hfinite
    | notANumber => cases hfinite
  | _ => simp [toJson?, Json.ofInt]

end Literal

/-! ## §3. Runtime values. -/

/-- Whether an integer has 64 bits, with or without a sign. -/
def JsonNumber.isSized : JsonNumber → Bool
  | .integer i => fitsInt64 i || (0 ≤ i && fitsNat64 i.toNat)
  | .float _ => true

/-- A sized number has a finite double beside it. -/
theorem JsonNumber.toDouble_eq_finite {n : JsonNumber} (h : n.isSized = true) :
    ∃ x, n.toDouble = .finite x := by
  cases n with
  | float x => exact ⟨x, rfl⟩
  | integer i =>
    apply Double.ofInt_eq_finite
    simp only [isSized, Bool.or_eq_true, Bool.and_eq_true, decide_eq_true_eq] at h
    rcases h with hsigned | ⟨hpos, hnat⟩
    · exact natAbs_lt_of_fitsInt64 hsigned
    · unfold fitsNat64 at hnat
      rw [decide_eq_true_eq] at hnat
      omega

mutual
/-- Whether every integer in the value has 64 bits, with or without a sign. -/
def Json.isSized : Json → Bool
  | .number n => n.isSized
  | .array items => itemsSized items
  | .object entries => entriesSized entries
  | .null | .bool _ | .string _ => true
/-- Whether every integer in the items of an array has 64 bits. -/
def Json.itemsSized : List Json → Bool
  | [] => true
  | item :: items => item.isSized && itemsSized items
/-- Whether every integer in the entries of an object has 64 bits. -/
def Json.entriesSized : List (String × Json) → Bool
  | [] => true
  | (_, value) :: entries => value.isSized && entriesSized entries
end

namespace Json

theorem isSized_array_iff {items : List Json} :
    (Json.array items).isSized = true ↔ ∀ item ∈ items, item.isSized = true := by
  show itemsSized items = true ↔ _
  induction items with
  | nil => simp [itemsSized]
  | cons item items ih => simp [itemsSized, ih]

theorem isSized_object_iff {entries : List (String × Json)} :
    (Json.object entries).isSized = true ↔ ∀ entry ∈ entries, entry.2.isSized = true := by
  show entriesSized entries = true ↔ _
  induction entries with
  | nil => simp [entriesSized]
  | cons entry entries ih => simp [entriesSized, ih]

end Json

end GraphQLCheck
