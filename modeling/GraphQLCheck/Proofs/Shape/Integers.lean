/-
  GraphQLCheck.Proofs.Shape.Integers
  ──────────────────────────────────
  Numbers read as integers.

  A number that does not fit the integers it is read as is refused: it neither wraps around nor is it
  replaced by the last integer that fits.  `Int` reads a number as the integer that it is, and a conversion
  reads it as the nearest integer.  An integer of 64 bits that fits only without a sign may as well be read by
  way of its double: this rounds it, but not below the limit.

  Main results:
    * `JsonNumber.toInt64?_through_double`  — the way through the double brings no integer into range
    * `integer_conversions_never_wrap`      — what is read as an integer of 32 or of 64 bits, and as which one
-/
import GraphQLCheck.Proofs.Number.Nearest
import GraphQLCheck.Proofs.Shape.Conversion
import GraphQLCheck.Shape.Conversion

namespace GraphQLCheck

/-! ## §1. Ranges. -/

theorem fitsInt32_iff {i : Int} : fitsInt32 i = true ↔ -2 ^ 31 ≤ i ∧ i ≤ 2 ^ 31 - 1 := by
  unfold fitsInt32
  rw [Bool.and_eq_true, decide_eq_true_eq, decide_eq_true_eq]
  omega

theorem fitsInt64_iff {i : Int} : fitsInt64 i = true ↔ -2 ^ 63 ≤ i ∧ i ≤ 2 ^ 63 - 1 := by
  unfold fitsInt64
  rw [Bool.and_eq_true, decide_eq_true_eq, decide_eq_true_eq]
  omega

theorem int64?_eq_some_iff {i j : Int} : int64? i = some j ↔ fitsInt64 i = true ∧ i = j := by
  simp [int64?]

theorem int32?_eq_some_iff {i : Int} {result : Json} :
    int32? i = some result ↔ fitsInt32 i = true ∧ result = .ofInt i := by
  unfold int32?
  rw [Option.ite_none_right_eq_some, Option.some_inj, @eq_comm _ result]

/-! ## §2. Doubles of large integers. -/

namespace Double

/-- The double nearest to a fraction is the fraction rounded at the scale of its leading digits. -/
theorem ofUnitRatio_eq_finite {negative : Bool} {num den : Nat} {x : FiniteDouble}
    (h : ofUnitRatio negative num den = .finite x) : x.negative = negative ∧
      x.units = roundHalfEven num (den * Nat.pow 2 (scaleOf num den)) * Nat.pow 2 (scaleOf num den) := by
  unfold ofUnitRatio at h
  simp only [] at h
  split at h
  next => cases h
  next =>
    split at h
    next =>
      cases h
      exact ⟨rfl, rfl⟩
    next hcarry =>
      split at h
      next => cases h
      next =>
        -- rounding up has brought one more digit, and so it has brought a power of two
        cases h
        have hle := roundHalfEven_le num (den * Nat.pow 2 (scaleOf num den))
        have hlt := quotient_lt num den
        have hrounded : roundHalfEven num (den * Nat.pow 2 (scaleOf num den)) = 9007199254740992 := by omega
        refine ⟨rfl, ?_⟩
        rw [hrounded]
        show 4503599627370496 * 2 ^ (scaleOf num den + 1) = 9007199254740992 * 2 ^ scaleOf num den
        rw [pow_succ]
        omega

/-- Rounding an integer to a double does not bring it below a power of two. -/
theorem le_units_of_ofInt {i : Int} {x : FiniteDouble} (h : ofInt i = .finite x) {places : Nat}
    (hle : 2 ^ places ≤ i.natAbs) (hlarge : 53 ≤ places) : 2 ^ places * unitsPerOne ≤ x.units := by
  obtain ⟨_, hunits⟩ := ofUnitRatio_eq_finite h
  obtain ⟨one, hone, hpow⟩ := unitsPerOne_eq
  have hnum : 2 ^ (places + one) ≤ i.natAbs * unitsPerOne := by
    rw [hpow, pow_add]
    exact Nat.mul_le_mul_right _ hle
  have hne : i.natAbs * unitsPerOne ≠ 0 := ((Nat.two_pow_pos _).trans_le hnum).ne'
  have hlog : places + one ≤ (i.natAbs * unitsPerOne).log2 := (Nat.le_log2 hne).2 hnum
  have hscale : scaleOf (i.natAbs * unitsPerOne) 1 = (i.natAbs * unitsPerOne).log2 - 52 := by
    unfold scaleOf
    rw [Nat.div_one]
    omega
  have hdigits := le_quotient (i.natAbs * unitsPerOne) 1 (by omega)
  calc 2 ^ places * unitsPerOne = 2 ^ (places + one) := by rw [hpow, pow_add]; rfl
    _ ≤ 2 ^ (52 + scaleOf (i.natAbs * unitsPerOne) 1) := Nat.pow_le_pow_right two_pos (by omega)
    _ = 4503599627370496 * Nat.pow 2 (scaleOf (i.natAbs * unitsPerOne) 1) := pow_add 2 52 _
    _ ≤ x.units := by
      rw [hunits]
      exact Nat.mul_le_mul_right _ (hdigits.trans (le_roundHalfEven _ _))

end Double

/-- What is not below an integer does not round to less. -/
theorem NearestInteger.le {x : ℚ} {r : Int} (h : NearestInteger x r) {i : Int} (hle : (i : ℚ) ≤ x) : i ≤ r := by
  by_contra hlt
  have hcast : (r : ℚ) < i := by exact_mod_cast not_le.1 hlt
  have hnearer := h.nearest i
  rw [abs_of_nonneg (by linarith), abs_of_nonneg (by linarith)] at hnearer
  linarith

/-- The double of an integer that fits 64 bits only without a sign does not fit them with one. -/
theorem JsonNumber.le_value_of_toDouble {i : Int} (hsized : (JsonNumber.integer i).isSized = true)
    (hfits : fitsInt64 i = false) {x : FiniteDouble} (h : (JsonNumber.integer i).toDouble = .finite x) :
    ((2 ^ 63 : Int) : ℚ) ≤ x.value := by
  have hpos : 2 ^ 63 ≤ i := by
    simp only [isSized, hfits, Bool.false_or, Bool.and_eq_true, decide_eq_true_eq] at hsized
    unfold fitsInt64 at hfits
    rw [Bool.and_eq_false_iff, decide_eq_false_iff_not, decide_eq_false_iff_not] at hfits
    omega
  have hunits : 2 ^ 63 * unitsPerOne ≤ x.units := Double.le_units_of_ofInt h (by omega) (by decide)
  have hnegative : x.negative = false :=
    (Double.ofUnitRatio_eq_finite h).1.trans (decide_eq_false (by omega))
  have hone : (0 : ℚ) < unitsPerOne := by exact_mod_cast unitsPerOne_pos
  have hsigned : x.signed x.units = x.units := by
    unfold FiniteDouble.signed
    rw [hnegative]
    rfl
  unfold FiniteDouble.value
  rw [hsigned, le_div_iff₀ hone]
  exact_mod_cast hunits

/-! ## §3. By way of doubles. -/

namespace JsonNumber

/-- A number read as an integer of 64 bits: if it is none with a sign, its double is rounded. -/
def toInt64ThroughDouble? (n : JsonNumber) : Option Int :=
  match n with
  | .integer i => if fitsInt64 i then some i else n.toDouble.finite?.bind fun x => int64? x.roundToInt
  | .float x => int64? x.roundToInt

/-- A number read as an integer of 32 bits: if it is none of 64 bits with a sign, its double is. -/
def toInt32ThroughDouble? (n : JsonNumber) : Option Json :=
  match n with
  | .integer i =>
    if fitsInt64 i then int32? i else n.toDouble.finite?.bind fun x => x.exactInt?.bind int32?
  | .float x => x.exactInt?.bind int32?

/-- **The way through the double brings no integer of 64 bits into range.** -/
theorem toInt64?_through_double {n : JsonNumber} (h : n.isSized = true) :
    n.toInt64ThroughDouble? = int64? n.roundToInt := by
  cases n with
  | float x =>
    unfold toInt64ThroughDouble? roundToInt
    rfl
  | integer i =>
    unfold toInt64ThroughDouble? roundToInt
    simp only []
    cases hfits : fitsInt64 i with
    | true =>
      rw [if_pos rfl, int64?_eq_some_iff.2 ⟨hfits, rfl⟩]
    | false =>
      -- the integer is beyond the limit, and so is what its double rounds to
      obtain ⟨x, hx⟩ := toDouble_eq_finite h
      have hle := x.nearestInteger_roundToInt.le (le_value_of_toDouble h hfits hx)
      have hout : fitsInt64 x.roundToInt ≠ true := by
        rw [Ne, fitsInt64_iff]
        omega
      rw [hx, if_neg Bool.false_ne_true, Double.finite?, Option.bind_some, int64?, int64?, if_neg hout,
        if_neg (by rw [hfits]; exact Bool.false_ne_true)]

/-- The same holds of integers of 32 bits. -/
theorem toInt32?_through_double {n : JsonNumber} (h : n.isSized = true) :
    n.toInt32ThroughDouble? = parseInt32 (.number n) := by
  cases n with
  | float x =>
    unfold toInt32ThroughDouble? parseInt32
    rfl
  | integer i =>
    unfold toInt32ThroughDouble? parseInt32
    simp only []
    cases hfits : fitsInt64 i with
    | true => rw [if_pos rfl]
    | false =>
      obtain ⟨x, hx⟩ := toDouble_eq_finite h
      have hle := le_value_of_toDouble h hfits hx
      have hout : fitsInt32 i ≠ true := by
        intro hin
        rw [← Bool.not_eq_true, fitsInt64_iff] at hfits
        rw [fitsInt32_iff] at hin
        omega
      rw [hx, if_neg Bool.false_ne_true, Double.finite?, Option.bind_some, int32?, if_neg hout,
        Option.bind_eq_none_iff]
      intro j hj
      rw [FiniteDouble.exactInt?_eq_some_iff] at hj
      rw [hj, Int.cast_le] at hle
      rw [int32?, if_neg]
      rw [fitsInt32_iff]
      omega

end JsonNumber

/-! ## §4. What is read. -/

/-- `Int` reads a number as the integer of 32 bits that it is. -/
theorem parseInt32_eq_some_iff {n : JsonNumber} {result : Json} :
    parseInt32 (.number n) = some result ↔
      ∃ i : Int, n.value = i ∧ fitsInt32 i = true ∧ result = .ofInt i := by
  cases n with
  | integer i =>
    unfold parseInt32 JsonNumber.value
    simp only [int32?_eq_some_iff, Int.cast_inj, exists_eq_left']
  | float x =>
    unfold parseInt32 JsonNumber.value
    simp only [Option.bind_eq_some_iff, FiniteDouble.exactInt?_eq_some_iff, int32?_eq_some_iff]

/-- A number that is read as an integer of 64 bits is read as the nearest one. -/
theorem Json.toInt64?_number (n : JsonNumber) : (Json.number n).toInt64? = int64? n.roundToInt := by
  unfold toInt64?
  rfl

theorem PrimitiveKind.convert?_long_eq_some_iff {n : JsonNumber} {result : Materialized} :
    PrimitiveKind.long.convert? (.number n) = some result ↔
      fitsInt64 n.roundToInt = true ∧ result = .long n.roundToInt := by
  unfold convert?
  simp only [Json.toInt64?_number, Option.map_eq_some_iff, int64?_eq_some_iff]
  constructor
  · rintro ⟨_, ⟨hfits, rfl⟩, rfl⟩
    exact ⟨hfits, rfl⟩
  · rintro ⟨hfits, rfl⟩
    exact ⟨_, ⟨hfits, rfl⟩, rfl⟩

/-- An integer of 32 bits is first read as one of 64 bits, which leaves none out. -/
theorem PrimitiveKind.convert?_int_eq_some_iff {n : JsonNumber} {result : Materialized} :
    PrimitiveKind.int.convert? (.number n) = some result ↔
      fitsInt32 n.roundToInt = true ∧ result = .int n.roundToInt := by
  unfold convert?
  simp only [Json.toInt64?_number, Option.map_eq_some_iff, Option.filter_eq_some_iff, int64?_eq_some_iff]
  constructor
  · rintro ⟨_, ⟨⟨_, rfl⟩, hfits⟩, rfl⟩
    exact ⟨hfits, rfl⟩
  · rintro ⟨hfits, rfl⟩
    refine ⟨_, ⟨⟨?_, rfl⟩, hfits⟩, rfl⟩
    rw [fitsInt32_iff] at hfits
    rw [fitsInt64_iff]
    omega

/-- A conversion to a simple shape comes to what the shape makes of a number. -/
theorem ShapeRegistry.materialize_primitive {registry : ShapeRegistry} {kind : PrimitiveKind} {n : JsonNumber}
    {result : Materialized} :
    registry.materialize (.primitive kind) (.number n) = .value result ↔
      kind.convert? (.number n) = some result := by
  unfold materialize Json.materializeWith materializeLeaf
  exact Outcome.ofOption_eq_value_iff

/-- **Numbers are read as integers without wrapping around or stopping at a limit.**  `Int` reads a number
exactly if it is an integer of 32 bits, and as that integer.  A conversion takes the nearest integer, a half
going to the even neighbour: to a long exactly if that has 64 bits, to an int exactly if it has 32.  Both come
to the same by way of doubles, where an integer has 64 bits at most. -/
theorem integer_conversions_never_wrap (registry : ShapeRegistry) (n : JsonNumber) :
    (∀ result, intScalar.parseValue (.number n) = some result ↔
      ∃ i : Int, n.value = i ∧ (-2 ^ 31 ≤ i ∧ i ≤ 2 ^ 31 - 1) ∧ result = .ofInt i) ∧
    (∃ r : Int, NearestInteger n.value r ∧ (∀ other, NearestInteger n.value other → other = r) ∧
      (∀ result, registry.materialize (.primitive .long) (.number n) = .value result ↔
        (-2 ^ 63 ≤ r ∧ r ≤ 2 ^ 63 - 1) ∧ result = .long r) ∧
      (∀ result, registry.materialize (.primitive .int) (.number n) = .value result ↔
        (-2 ^ 31 ≤ r ∧ r ≤ 2 ^ 31 - 1) ∧ result = .int r)) ∧
    (n.isSized = true → n.toInt32ThroughDouble? = intScalar.parseValue (.number n) ∧
      n.toInt64ThroughDouble? = (Json.number n).toInt64?) := by
  simp only [← fitsInt32_iff, ← fitsInt64_iff]
  refine ⟨fun result => parseInt32_eq_some_iff, ⟨n.roundToInt, n.nearestInteger_roundToInt,
    fun other hother => hother.eq n.nearestInteger_roundToInt, fun result => ?_, fun result => ?_⟩,
    fun hsized => ⟨JsonNumber.toInt32?_through_double hsized, ?_⟩⟩
  · rw [ShapeRegistry.materialize_primitive, PrimitiveKind.convert?_long_eq_some_iff]
  · rw [ShapeRegistry.materialize_primitive, PrimitiveKind.convert?_int_eq_some_iff]
  · rw [JsonNumber.toInt64?_through_double hsized, Json.toInt64?_number]

/-- The largest integer of 64 bits has none of them for its sign, so it is read by way of its double, and this
is too large as well. -/
theorem largest_integer_is_refused :
    (JsonNumber.integer (2 ^ 64 - 1)).isSized = true ∧
      (JsonNumber.integer (2 ^ 64 - 1)).toInt32ThroughDouble? = none ∧
      (JsonNumber.integer (2 ^ 64 - 1)).toInt64ThroughDouble? = none := by
  have hsized : (JsonNumber.integer (2 ^ 64 - 1)).isSized = true := by decide
  obtain ⟨hint, hlong⟩ := (integer_conversions_never_wrap {} (.integer (2 ^ 64 - 1))).2.2 hsized
  exact ⟨hsized, hint.trans rfl, hlong.trans rfl⟩

end GraphQLCheck
