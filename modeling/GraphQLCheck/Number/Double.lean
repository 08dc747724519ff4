/-
  GraphQLCheck.Number.Double
  ──────────────────────────
  Double-precision numbers as exact values.

  A finite double is a sign and a count of the least positive double: `units x` of them, where one
  unit is `2⁻¹⁰⁷⁴`.  Every operation is an exact fraction of naturals followed by ONE rounding to
  nearest, a half going to the even neighbour (`roundHalfEven`), so nothing here depends on
  machine floating point.

      ofRatio     — the double nearest to a fraction (infinite when too large)
      ofInt       — the double nearest to an integer
      roundToInt  — the integer nearest to a double
      exactInt?   — the integer a double is, if it is one
-/

namespace GraphQLCheck

/-! ## §1. Rounding a fraction to an integer. -/

/-- `num / den` rounded to the nearest integer; a half goes to the even neighbour. -/
def roundHalfEven (num den : Nat) : Nat :=
  let floor := num / den
  let twice := 2 * (num % den)
  if twice < den then floor
  else if den < twice then floor + 1
  else floor + floor % 2

theorem le_roundHalfEven (num den : Nat) : num / den ≤ roundHalfEven num den := by
  simp only [roundHalfEven]; split <;> (try split) <;> omega

theorem roundHalfEven_le (num den : Nat) : roundHalfEven num den ≤ num / den + 1 := by
  simp only [roundHalfEven]; split <;> (try split) <;> omega

/-! ## §2. Finite doubles. -/

/-- The number of units in the number one. -/
def unitsPerOne : Nat := Nat.pow 2 1074

/-- A finite double: `± mantissa · 2 ^ (exponent - 1074)`, in its only normalized form.  A mantissa has
at most 53 binary digits, and exactly so many unless the exponent is the least one. -/
structure FiniteDouble where
  negative : Bool
  mantissa : Nat
  exponent : Nat
  mantissa_lt : mantissa < 9007199254740992
  exponent_le : exponent ≤ 2045
  normalized : exponent = 0 ∨ 4503599627370496 ≤ mantissa
  deriving DecidableEq, Repr

namespace FiniteDouble

/-- The magnitude, counted in units of the least positive double. -/
def units (x : FiniteDouble) : Nat := x.mantissa * Nat.pow 2 x.exponent

/-- Both zeros are zero. -/
def isZero (x : FiniteDouble) : Bool := x.mantissa == 0

/-- Zero of either sign. -/
def zero (negative : Bool) : FiniteDouble :=
  ⟨negative, 0, 0, by decide, by decide, .inl rfl⟩

/-- The number with the sign `negative` and the magnitude of `x`. -/
def withSign (negative : Bool) (x : FiniteDouble) : FiniteDouble := { x with negative }

/-- Give a magnitude the sign of `x`. -/
def signed (x : FiniteDouble) (magnitude : Nat) : Int :=
  if x.negative then -(magnitude : Int) else magnitude

/-- The nearest integer; a half goes to the even neighbour. -/
def roundToInt (x : FiniteDouble) : Int := x.signed (roundHalfEven x.units unitsPerOne)

/-- Whether the number has no fractional part. -/
def isIntegral (x : FiniteDouble) : Bool := x.units % unitsPerOne == 0

/-- The integer that the number is, if it is one. -/
def exactInt? (x : FiniteDouble) : Option Int :=
  if x.isIntegral then some (x.signed (x.units / unitsPerOne)) else none

end FiniteDouble

/-! ## §3. Doubles. -/

/-- A double-precision number. -/
inductive Double where
  /-- An ordinary number. -/
  | finite (x : FiniteDouble)
  /-- Larger than every finite double. -/
  | infinite (negative : Bool)
  /-- Not a number. -/
  | notANumber
  deriving DecidableEq, Repr

namespace Double

/-- The finite number, if it is one. -/
def finite? : Double → Option FiniteDouble
  | .finite x => some x
  | _ => none

/-- The number with the opposite sign. -/
def neg : Double → Double
  | .finite x => .finite (x.withSign !x.negative)
  | .infinite negative => .infinite !negative
  | .notANumber => .notANumber

/-- Scale a magnitude down until its integral part has at most 53 binary digits. -/
def scaleOf (num den : Nat) : Nat := (num / den).log2 + 1 - 53

theorem quotient_lt (num den : Nat) :
    num / (den * Nat.pow 2 (scaleOf num den)) < 9007199254740992 := by
  show num / (den * 2 ^ scaleOf num den) < 2 ^ 53
  rw [← Nat.div_div_eq_div_mul, Nat.div_lt_iff_lt_mul (Nat.two_pow_pos _), ← Nat.pow_add]
  refine Nat.lt_of_lt_of_le Nat.lt_log2_self (Nat.pow_le_pow_right (by decide) ?_)
  simp only [scaleOf]; omega

theorem le_quotient (num den : Nat) (h : scaleOf num den ≠ 0) :
    4503599627370496 ≤ num / (den * Nat.pow 2 (scaleOf num den)) := by
  show 2 ^ 52 ≤ num / (den * 2 ^ scaleOf num den)
  rw [← Nat.div_div_eq_div_mul, Nat.le_div_iff_mul_le (Nat.two_pow_pos _), ← Nat.pow_add]
  have hne : num / den ≠ 0 := by
    intro h0; simp [scaleOf, h0] at h
  refine Nat.le_trans (Nat.pow_le_pow_right (by decide) ?_) (Nat.log2_self_le hne)
  simp only [scaleOf] at h ⊢; omega

/-- The double nearest to `± num / den` units; a half goes to the even neighbour, and what rounds
beyond the largest double is infinite. -/
def ofUnitRatio (negative : Bool) (num den : Nat) : Double :=
  let scale := scaleOf num den
  let rounded := roundHalfEven num (den * Nat.pow 2 scale)
  if hs : scale > 2045 then .infinite negative
  else if hr : rounded < 9007199254740992 then
    .finite ⟨negative, rounded, scale, hr, by omega, by
      by_cases h0 : scale = 0
      · exact .inl h0
      · exact .inr (Nat.le_trans (le_quotient num den h0) (le_roundHalfEven _ _))⟩
  -- rounding up has reached the next power of two
  else if ht : scale + 1 > 2045 then .infinite negative
  else .finite ⟨negative, 4503599627370496, scale + 1, by decide, by omega, .inr (Nat.le_refl _)⟩

/-- The double nearest to `± num / den`. -/
def ofRatio (negative : Bool) (num den : Nat) : Double :=
  ofUnitRatio negative (num * unitsPerOne) den

/-- The double nearest to an integer. -/
def ofInt (i : Int) : Double := ofRatio (i < 0) i.natAbs 1

end Double

namespace FiniteDouble

/-- The product, rounded once. -/
def mul (x y : FiniteDouble) : Double :=
  .ofUnitRatio (x.negative != y.negative) (x.units * y.units) unitsPerOne

/-- The quotient, rounded once; `y` is not zero. -/
def div (x y : FiniteDouble) : Double :=
  .ofRatio (x.negative != y.negative) x.units y.units

end FiniteDouble

end GraphQLCheck
