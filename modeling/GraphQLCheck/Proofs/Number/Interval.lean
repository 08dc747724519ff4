/-
  GraphQLCheck.Proofs.Number.Interval
  ───────────────────────────────────
  The decimals that read back as a double.

  The numbers that round to a double other than zero are those from half the way to the neighbour below to half
  the way to the neighbour above.  The ends are among them if the mantissa is even.  Reading a decimal takes the
  digits of the scale of its leading digit, and that is the scale of the double, with one exception: just below
  a power of two the scale is one less, and rounding up there brings the power of two.

      Decimal.value          — the rational that a decimal is
      FiniteDouble.Encloses  — the rationals that round to the magnitude of a double

  Main results:
    * `FiniteDouble.readsBack_iff`      — the test whether a decimal reads back is whether it is in the interval
    * `Double.ofDecimal_of_encloses` — what is in the interval of a double reads back as the double
-/
import GraphQLCheck.Number.Shortest
import GraphQLCheck.Proofs.Number.Nearest
import Mathlib.Data.Rat.Cast.Order

namespace GraphQLCheck

/-! ## §1. Decimals. -/

namespace Decimal

/-- The rational that a decimal is. -/
def value (d : Decimal) : ℚ := d.digits * (10 : ℚ) ^ d.exponent

/-- A power of ten with an exponent of either sign is a fraction of two with natural exponents. -/
theorem zpow_eq_div (exponent : Int) :
    (10 : ℚ) ^ exponent = ((10 ^ exponent.toNat : Nat) : ℚ) / ((10 ^ (-exponent).toNat : Nat) : ℚ) := by
  push_cast
  rw [← zpow_natCast, ← zpow_natCast, ← zpow_sub₀ (by norm_num)]
  congr 1
  omega

theorem value_eq_div (d : Decimal) :
    d.value = ((d.digits * 10 ^ d.exponent.toNat : Nat) : ℚ) / ((10 ^ (-d.exponent).toNat : Nat) : ℚ) := by
  unfold value
  rw [zpow_eq_div, Nat.cast_mul, mul_div_assoc]

theorem cast_pow_ten_pos (places : Nat) : (0 : ℚ) < ((10 ^ places : Nat) : ℚ) := by positivity

section Compare

variable (d : Decimal) (factor other : Nat)

theorem compareTimes_eq_lt_iff : d.compareTimes factor other = .lt ↔ d.value * factor < other := by
  rw [value_eq_div, div_mul_eq_mul_div, div_lt_iff₀ (cast_pow_ten_pos _)]
  unfold compareTimes
  rw [Nat.compare_eq_lt]
  exact_mod_cast Iff.rfl

theorem compareTimes_eq_gt_iff : d.compareTimes factor other = .gt ↔ (other : ℚ) < d.value * factor := by
  rw [value_eq_div, div_mul_eq_mul_div, lt_div_iff₀ (cast_pow_ten_pos _)]
  unfold compareTimes
  rw [Nat.compare_eq_gt]
  exact_mod_cast Iff.rfl

theorem compareTimes_eq_eq_iff : d.compareTimes factor other = .eq ↔ d.value * factor = other := by
  rw [value_eq_div, div_mul_eq_mul_div, div_eq_iff (cast_pow_ten_pos _).ne']
  unfold compareTimes
  rw [Nat.compare_eq_eq]
  exact_mod_cast Iff.rfl

end Compare

end Decimal

/-! ## §2. The interval of a double. -/

namespace FiniteDouble

/-- How far below a double its interval reaches, in quarters of the place of its last binary digit. -/
def reachBelow (x : FiniteDouble) : Nat := if x.narrowBelow then 1 else 2

theorem reachBelow_pos (x : FiniteDouble) : 0 < x.reachBelow := by
  unfold reachBelow
  split <;> decide

/-- The interval of a double reaches no farther down than up. -/
theorem reachBelow_le (x : FiniteDouble) : x.reachBelow ≤ 2 := by
  unfold reachBelow
  split <;> decide

/-- A rational, counted in units, rounds to the magnitude of a double: it is between the middles of the double
and of its neighbours, or is one of these if the mantissa is even. -/
structure Encloses (x : FiniteDouble) (q : ℚ) : Prop where
  lower : ((4 * x.mantissa - x.reachBelow : Nat) : ℚ) * 2 ^ x.exponent ≤ 4 * q
  upper : 4 * q ≤ ((4 * x.mantissa + 2 : Nat) : ℚ) * 2 ^ x.exponent
  even : ((4 * x.mantissa - x.reachBelow : Nat) : ℚ) * 2 ^ x.exponent = 4 * q ∨
    4 * q = ((4 * x.mantissa + 2 : Nat) : ℚ) * 2 ^ x.exponent → x.mantissa % 2 = 0

/-- **A decimal passes the test of reading back if it is in the interval.** -/
theorem readsBack_iff {x : FiniteDouble} {d : Decimal} :
    x.readsBack d = true ↔ x.Encloses (d.value * unitsPerOne) := by
  have hfactor : d.value * ((4 * unitsPerOne : Nat) : ℚ) = 4 * (d.value * unitsPerOne) := by
    push_cast
    ring
  have hends : ∀ magnitude : Nat, ((magnitude * Nat.pow 2 x.exponent : Nat) : ℚ) = magnitude * 2 ^ x.exponent :=
    fun magnitude => by exact_mod_cast rfl
  unfold readsBack
  simp only [Bool.and_eq_true, Bool.or_eq_true, beq_iff_eq, Decimal.compareTimes_eq_lt_iff,
    Decimal.compareTimes_eq_gt_iff, Decimal.compareTimes_eq_eq_iff, hfactor, hends]
  show (_ < _ ∨ _) ∧ _ ↔ _
  constructor
  · rintro ⟨hlower, hupper⟩
    refine ⟨?_, ?_, ?_⟩
    · exact hlower.elim le_of_lt fun h => h.2.ge
    · exact hupper.elim le_of_lt fun h => h.2.le
    · rintro (heq | heq)
      · exact hlower.elim (fun h => absurd heq h.ne) And.left
      · exact hupper.elim (fun h => absurd heq h.ne) And.left
  · intro h
    constructor
    · exact h.lower.lt_or_eq.imp_right fun heq => ⟨h.even (.inl heq), heq.symm⟩
    · exact h.upper.lt_or_eq.imp_right fun heq => ⟨h.even (.inr heq), heq⟩

/-- A double is in its own interval. -/
theorem encloses_units {x : FiniteDouble} (h : x.mantissa ≠ 0) : x.Encloses x.units := by
  have hpow : (0 : ℚ) < 2 ^ x.exponent := by positivity
  have hunits : (x.units : ℚ) = x.mantissa * 2 ^ x.exponent := by exact_mod_cast rfl
  have hreach := x.reachBelow_pos
  have hlower : ((4 * x.mantissa - x.reachBelow : Nat) : ℚ) * 2 ^ x.exponent < 4 * x.units := by
    rw [hunits, ← mul_assoc]
    refine mul_lt_mul_of_pos_right ?_ hpow
    exact_mod_cast (by omega : 4 * x.mantissa - x.reachBelow < 4 * x.mantissa)
  have hupper : 4 * (x.units : ℚ) < ((4 * x.mantissa + 2 : Nat) : ℚ) * 2 ^ x.exponent := by
    rw [hunits, ← mul_assoc]
    refine mul_lt_mul_of_pos_right ?_ hpow
    exact_mod_cast (by omega : 4 * x.mantissa < 4 * x.mantissa + 2)
  exact ⟨hlower.le, hupper.le, fun h => h.elim (fun heq => absurd heq hlower.ne) fun heq => absurd heq hupper.ne⟩

end FiniteDouble

/-! ## §3. What rounds to a double. -/

namespace Double

variable {num den : Nat}

/-- The scale of a number that has its leading binary digit in the place of that of the double's mantissas. -/
theorem scaleOf_eq {scale : Nat} (hden : 0 < den) (hlt : num < 2 ^ 53 * (den * 2 ^ scale))
    (hle : scale ≠ 0 → 2 ^ 52 * (den * 2 ^ scale) ≤ num) : scaleOf num den = scale := by
  have hplaces : ∀ digits, 2 ^ digits * (den * 2 ^ scale) = 2 ^ (digits + scale) * den := by
    intro digits
    rw [pow_add, mul_assoc, mul_comm den]
  rw [hplaces] at hlt hle
  have hquotient : num / den < 2 ^ (53 + scale) := (Nat.div_lt_iff_lt_mul hden).2 hlt
  unfold scaleOf
  by_cases hzero : scale = 0
  · subst hzero
    by_cases hsmall : num / den = 0
    · rw [hsmall]
      rfl
    · have hlog := (Nat.log2_lt hsmall).2 hquotient
      omega
  · have hlarge : 2 ^ (52 + scale) ≤ num / den := (Nat.le_div_iff_mul_le hden).2 (hle hzero)
    have hne : num / den ≠ 0 := ((Nat.two_pow_pos _).trans_le hlarge).ne'
    have hlog := (Nat.log2_lt hne).2 hquotient
    have hlog' := (Nat.le_log2 hne).2 hlarge
    omega

/-- A number that rounds to the mantissa at the scale of a double is read as the double. -/
theorem ofUnitRatio_of_mantissa {x : FiniteDouble} (hscale : scaleOf num den = x.exponent)
    (hround : roundHalfEven num (den * Nat.pow 2 x.exponent) = x.mantissa) :
    ofUnitRatio x.negative num den = .finite x := by
  obtain ⟨negative, mantissa, exponent, hmantissa, hexponent, hnormalized⟩ := x
  subst hscale
  have hround : roundHalfEven num (den * Nat.pow 2 (scaleOf num den)) = mantissa := hround
  subst hround
  unfold ofUnitRatio
  simp only []
  rw [dif_neg (Nat.not_lt.2 hexponent), dif_pos hmantissa]

/-- A number that rounds up to a power of two at the scale below is read as that power. -/
theorem ofUnitRatio_of_carry {x : FiniteDouble} (hmantissa : x.mantissa = 4503599627370496)
    (hscale : scaleOf num den + 1 = x.exponent)
    (hround : roundHalfEven num (den * Nat.pow 2 (scaleOf num den)) = 9007199254740992) :
    ofUnitRatio x.negative num den = .finite x := by
  obtain ⟨negative, mantissa, exponent, hlt, hexponent, hnormalized⟩ := x
  subst hscale
  subst hmantissa
  have hscale : ¬2045 < scaleOf num den := by
    have hle : scaleOf num den + 1 ≤ 2045 := hexponent
    omega
  unfold ofUnitRatio
  simp only []
  rw [dif_neg hscale, dif_neg (by rw [hround]; decide), dif_neg (Nat.not_lt.2 hexponent)]

/-- A fraction that is at most a half away from an integer rounds to it, if the integer is even in case it is
just a half. -/
theorem roundHalfEven_eq (hden : 0 < den) {r : Nat} (hlower : 2 * r * den ≤ 2 * num + den)
    (hupper : 2 * num ≤ 2 * r * den + den)
    (heven : 2 * r * den = 2 * num + den ∨ 2 * num = 2 * r * den + den → r % 2 = 0) :
    roundHalfEven num den = r := by
  have hpos : (0 : ℚ) < den := by exact_mod_cast hden
  -- the bounds are those of the distance from `r`, times `den`
  have hdistance : ((num : ℚ) / den - r) * den = num - r * den := by
    rw [sub_mul, div_mul_cancel₀ _ hpos.ne']
  have hlower' : (2 * r * den : ℚ) ≤ 2 * num + den := by exact_mod_cast hlower
  have hupper' : (2 * num : ℚ) ≤ 2 * r * den + den := by exact_mod_cast hupper
  have hnearest : NearestInteger ((num : ℚ) / den) (r : Int) := by
    rw [← Int.cast_natCast (R := ℚ) r] at hdistance
    refine NearestInteger.of_le_half (abs_le.2 ⟨?_, ?_⟩) fun htie => ?_
    · refine le_of_mul_le_mul_right ?_ hpos
      rw [hdistance, Int.cast_natCast]
      linarith
    · refine le_of_mul_le_mul_right ?_ hpos
      rw [hdistance, Int.cast_natCast]
      linarith
    · rw [Int.even_coe_nat, Nat.even_iff]
      apply heven
      rcases eq_or_eq_neg_of_abs_eq htie with heq | heq
      · rw [heq, Int.cast_natCast] at hdistance
        refine .inr ?_
        have hcast : (2 * num : ℚ) = 2 * r * den + den := by linarith
        exact_mod_cast hcast
      · rw [heq, Int.cast_natCast] at hdistance
        refine .inl ?_
        have hcast : (2 * r * den : ℚ) = 2 * num + den := by linarith
        exact_mod_cast hcast
  exact_mod_cast (nearestInteger_roundHalfEven num hden).eq hnearest

section Interval

variable {x : FiniteDouble} (hden : 0 < den)
include hden

/-- The interval in whole numbers, counted in quarters of the place of the last binary digit. -/
theorem bounds_of_encloses (h : x.Encloses ((num : ℚ) / den)) :
    (4 * x.mantissa - x.reachBelow) * (den * 2 ^ x.exponent) ≤ 4 * num ∧
    4 * num ≤ (4 * x.mantissa + 2) * (den * 2 ^ x.exponent) ∧
    ((4 * x.mantissa - x.reachBelow) * (den * 2 ^ x.exponent) = 4 * num ∨
      4 * num = (4 * x.mantissa + 2) * (den * 2 ^ x.exponent) → x.mantissa % 2 = 0) := by
  have hpos : (0 : ℚ) < den := by exact_mod_cast hden
  obtain ⟨hlower, hupper, heven⟩ := h
  rw [← mul_div_assoc, le_div_iff₀ hpos] at hlower
  rw [← mul_div_assoc, div_le_iff₀ hpos] at hupper
  rw [← mul_div_assoc, eq_div_iff hpos.ne', div_eq_iff hpos.ne'] at heven
  rw [mul_comm den, ← mul_assoc, ← mul_assoc]
  exact ⟨by exact_mod_cast hlower, by exact_mod_cast hupper, by exact_mod_cast heven⟩

/-- What is in the interval of a double and not below its scale rounds to its mantissa at that scale. -/
theorem ofUnitRatio_of_scale (h : x.Encloses ((num : ℚ) / den))
    (hscale : x.exponent ≠ 0 → 2 ^ 52 * (den * 2 ^ x.exponent) ≤ num) :
    ofUnitRatio x.negative num den = .finite x := by
  obtain ⟨hlower, hupper, heven⟩ := bounds_of_encloses hden h
  have hplace : 0 < den * 2 ^ x.exponent := Nat.mul_pos hden (Nat.two_pow_pos _)
  have hmantissa : x.mantissa * (den * 2 ^ x.exponent) ≤ (2 ^ 53 - 1) * (den * 2 ^ x.exponent) :=
    Nat.mul_le_mul_right _ (Nat.le_sub_one_of_lt x.mantissa_lt)
  have hreach : 4 * (x.mantissa * (den * 2 ^ x.exponent)) - 2 * (den * 2 ^ x.exponent) ≤
      (4 * x.mantissa - x.reachBelow) * (den * 2 ^ x.exponent) := by
    rw [← mul_assoc, ← Nat.sub_mul]
    exact Nat.mul_le_mul_right _ (Nat.sub_le_sub_left x.reachBelow_le _)
  rw [add_mul, mul_assoc] at hupper heven
  refine ofUnitRatio_of_mantissa (scaleOf_eq hden ?_ hscale) (roundHalfEven_eq hplace ?_ ?_ ?_)
  · omega
  · show 2 * x.mantissa * (den * 2 ^ x.exponent) ≤ 2 * num + den * 2 ^ x.exponent
    rw [mul_assoc]
    omega
  · show 2 * num ≤ 2 * x.mantissa * (den * 2 ^ x.exponent) + den * 2 ^ x.exponent
    rw [mul_assoc]
    omega
  · show 2 * x.mantissa * (den * 2 ^ x.exponent) = 2 * num + den * 2 ^ x.exponent ∨
      2 * num = 2 * x.mantissa * (den * 2 ^ x.exponent) + den * 2 ^ x.exponent → _
    rw [mul_assoc]
    intro htie
    apply heven
    omega

/-- What is in the interval of a double but below its scale rounds up to a power of two. -/
theorem ofUnitRatio_of_below (h : x.Encloses ((num : ℚ) / den)) (hexponent : x.exponent ≠ 0)
    (hbelow : num < 2 ^ 52 * (den * 2 ^ x.exponent)) : ofUnitRatio x.negative num den = .finite x := by
  obtain ⟨hlower, _, _⟩ := bounds_of_encloses hden h
  obtain ⟨scale, hscale⟩ : ∃ scale, x.exponent = scale + 1 := Nat.exists_eq_succ_of_ne_zero hexponent
  have hplace : 0 < den * 2 ^ scale := Nat.mul_pos hden (Nat.two_pow_pos _)
  have htwice : den * 2 ^ x.exponent = 2 * (den * 2 ^ scale) := by
    rw [hscale, pow_succ]
    ring
  rw [htwice] at hlower hbelow
  -- the mantissa is the least one, so the neighbour below is only half as far away
  have hleast : 4503599627370496 ≤ x.mantissa := x.normalized.resolve_left hexponent
  have hmantissa : x.mantissa = 4503599627370496 := by
    by_contra hne
    have hreach := x.reachBelow_le
    have hmul : (4 * 4503599627370497 - 2) * (2 * (den * 2 ^ scale)) ≤
        (4 * x.mantissa - x.reachBelow) * (2 * (den * 2 ^ scale)) := Nat.mul_le_mul_right _ (by omega)
    omega
  have hreach : x.reachBelow = 1 := by
    have hpositive : decide (0 < x.exponent) = true := decide_eq_true (Nat.pos_of_ne_zero hexponent)
    unfold FiniteDouble.reachBelow FiniteDouble.narrowBelow
    rw [hmantissa, hpositive]
    rfl
  rw [hmantissa, hreach] at hlower
  have hscaleOf : scaleOf num den = scale := scaleOf_eq hden (by omega) fun _ => by omega
  refine ofUnitRatio_of_carry hmantissa (hscaleOf ▸ hscale.symm) ?_
  rw [hscaleOf]
  refine roundHalfEven_eq hplace ?_ ?_ fun _ => by decide
  · show 2 * 9007199254740992 * (den * 2 ^ scale) ≤ 2 * num + den * 2 ^ scale
    omega
  · show 2 * num ≤ 2 * 9007199254740992 * (den * 2 ^ scale) + den * 2 ^ scale
    omega

/-- **A fraction in the interval of a double rounds to the double.** -/
theorem ofUnitRatio_of_encloses (h : x.Encloses ((num : ℚ) / den)) :
    ofUnitRatio x.negative num den = .finite x := by
  by_cases hscale : x.exponent ≠ 0 → 2 ^ 52 * (den * 2 ^ x.exponent) ≤ num
  · exact ofUnitRatio_of_scale hden h hscale
  · rw [Classical.not_imp, Nat.not_le] at hscale
    exact ofUnitRatio_of_below hden h hscale.1 hscale.2

end Interval

end Double

/-! ## §4. Decimals that read back. -/

namespace Decimal

variable {d : Decimal}

theorem lt_pow_decimalLength {n : Nat} (h : n ≠ 0) : n < 10 ^ Double.decimalLength n := by
  unfold Double.decimalLength
  rw [if_neg h]
  exact (Nat.length_toDigits_le_iff (by decide) Nat.length_toDigits_pos).1 (Nat.le_refl _)

theorem pow_le_of_decimalLength {n : Nat} (h : n ≠ 0) : 10 ^ (Double.decimalLength n - 1) ≤ n := by
  unfold Double.decimalLength
  rw [if_neg h]
  by_cases hone : (Nat.toDigits 10 n).length - 1 = 0
  · rw [hone]
    exact Nat.pos_of_ne_zero h
  · rw [← Nat.not_lt, ← Nat.length_toDigits_le_iff (by decide) (Nat.pos_of_ne_zero hone)]
    omega

/-- A decimal is below the power of ten before its leading digit. -/
theorem value_lt (h : d.digits ≠ 0) : d.value < (10 : ℚ) ^ ((Double.decimalLength d.digits : Int) + d.exponent) := by
  have hlt : (d.digits : ℚ) < 10 ^ Double.decimalLength d.digits := by exact_mod_cast lt_pow_decimalLength h
  rw [zpow_add₀ (by norm_num), zpow_natCast]
  exact mul_lt_mul_of_pos_right hlt (zpow_pos (by norm_num) _)

/-- A decimal is not below the power of ten of its leading digit. -/
theorem le_value (h : d.digits ≠ 0) :
    (10 : ℚ) ^ ((Double.decimalLength d.digits : Int) + d.exponent - 1) ≤ d.value := by
  have hle : (10 : ℚ) ^ (Double.decimalLength d.digits - 1) ≤ d.digits := by exact_mod_cast pow_le_of_decimalLength h
  have hlength : 0 < Double.decimalLength d.digits := by
    unfold Double.decimalLength
    rw [if_neg h]
    exact Nat.length_toDigits_pos
  have hexponent : (Double.decimalLength d.digits : Int) + d.exponent - 1 =
      ((Double.decimalLength d.digits - 1 : Nat) : Int) + d.exponent := by omega
  rw [hexponent, zpow_add₀ (by norm_num), zpow_natCast]
  exact mul_le_mul_of_nonneg_right hle (zpow_nonneg (by norm_num) _)

end Decimal

namespace FiniteDouble

variable {x : FiniteDouble} {d : Decimal}

/-- The exponent of the power of two that one is, counted in units, is a name here too. -/
theorem cast_unitsPerOne : ∃ places, places = 1074 ∧ (unitsPerOne : ℚ) = 2 ^ places := by
  obtain ⟨places, hplaces, hunits⟩ := unitsPerOne_eq
  refine ⟨places, hplaces, ?_⟩
  rw [hunits]
  exact_mod_cast rfl

/-- Three binary digits are less than a decimal one. -/
theorem two_pow_lt_ten_pow {places : Nat} (h : 0 < places) : (2 : ℚ) ^ (3 * places) < 10 ^ places := by
  rw [pow_mul]
  exact pow_lt_pow_left₀ (by norm_num) (by norm_num) h.ne'

/-- A decimal in the interval of a double has less than 400 places before its point. -/
theorem Encloses.value_lt (h : x.Encloses (d.value * unitsPerOne)) {places : Nat} (hplaces : 400 ≤ places) :
    d.value < 10 ^ places := by
  obtain ⟨one, hone, hunits⟩ := cast_unitsPerOne
  have hupper := h.upper
  rw [hunits] at hupper
  have hmantissa : ((4 * x.mantissa + 2 : Nat) : ℚ) ≤ 4 * 2 ^ 53 := by
    have hlt := x.mantissa_lt
    exact_mod_cast (by omega : 4 * x.mantissa + 2 ≤ 4 * 2 ^ 53)
  -- in units, the largest double has 53 + 2045 binary places, and three for each decimal one are more
  have hexponent : (2 : ℚ) ^ (53 + x.exponent) ≤ 2 ^ (3 * places + one) := by
    have hle := x.exponent_le
    exact pow_le_pow_right₀ one_le_two (by omega)
  have hvalue : d.value * 2 ^ one ≤ 2 ^ (3 * places) * 2 ^ one := by
    rw [pow_add, pow_add] at hexponent
    have hmul := mul_le_mul_of_nonneg_right hmantissa (by positivity : (0 : ℚ) ≤ 2 ^ x.exponent)
    linarith
  exact (le_of_mul_le_mul_right hvalue (by positivity)).trans_lt (two_pow_lt_ten_pow (by omega))

/-- A decimal in the interval of a double other than zero has less than 400 zeros behind its point. -/
theorem Encloses.lt_value (hzero : x.mantissa ≠ 0) (h : x.Encloses (d.value * unitsPerOne)) {places : Nat}
    (hplaces : 400 ≤ places) : (10 : ℚ) ^ (-places : Int) < d.value := by
  obtain ⟨one, hone, hunits⟩ := cast_unitsPerOne
  have hlower := h.lower
  rw [hunits] at hlower
  -- the interval of the least double begins at half a unit
  have hmantissa : (2 : ℚ) ≤ ((4 * x.mantissa - x.reachBelow : Nat) : ℚ) := by
    have hreach := x.reachBelow_le
    exact_mod_cast (by omega : 2 ≤ 4 * x.mantissa - x.reachBelow)
  have hvalue : 1 ≤ d.value * (2 * 2 ^ one) := by
    have hmul : (2 : ℚ) * 1 ≤ ((4 * x.mantissa - x.reachBelow : Nat) : ℚ) * 2 ^ x.exponent :=
      mul_le_mul hmantissa (one_le_pow₀ one_le_two) zero_le_one (zero_le_two.trans hmantissa)
    linarith
  have hpow : (2 : ℚ) * 2 ^ one < 10 ^ places := by
    rw [← pow_succ']
    exact (pow_le_pow_right₀ one_le_two (by omega)).trans_lt (two_pow_lt_ten_pow (by omega))
  have hpositive : 0 < d.value := pos_of_mul_pos_left (one_pos.trans_le hvalue) (by positivity)
  rw [zpow_neg, zpow_natCast, inv_lt_iff_one_lt_mul₀ (by positivity)]
  exact hvalue.trans_lt (mul_lt_mul_of_pos_left hpow hpositive)

end FiniteDouble

/-- **A decimal in the interval of a double reads back as the double.** -/
theorem Double.ofDecimal_of_encloses {x : FiniteDouble} {d : Decimal} (hzero : x.mantissa ≠ 0)
    (h : x.Encloses (d.value * unitsPerOne)) : ofDecimal x.negative d.digits d.exponent = .finite x := by
  -- beyond 400 places a decimal is not read digit by digit; the limit has a name, lest its powers are computed
  obtain ⟨places, hplaces⟩ : ∃ places : Nat, places = 400 := ⟨_, rfl⟩
  have hlow := h.lt_value hzero hplaces.ge
  have hdigits : d.digits ≠ 0 := by
    intro hnone
    unfold Decimal.value at hlow
    rw [hnone, Nat.cast_zero, zero_mul] at hlow
    exact absurd hlow (not_lt.2 (zpow_nonneg (by norm_num) _))
  have hbelow : -(places : Int) < (decimalLength d.digits : Int) + d.exponent :=
    (zpow_lt_zpow_iff_right₀ (by norm_num)).1 (hlow.trans (Decimal.value_lt hdigits))
  have habove : (decimalLength d.digits : Int) + d.exponent - 1 < places := by
    refine (zpow_lt_zpow_iff_right₀ (by norm_num : (1 : ℚ) < 10)).1 ((Decimal.le_value hdigits).trans_lt ?_)
    rw [zpow_natCast]
    exact h.value_lt hplaces.ge
  have hden : 0 < Nat.pow 10 (-d.exponent).toNat := Nat.pow_pos (by decide)
  unfold ofDecimal
  simp only []
  rw [if_neg (by omega), if_neg (by omega)]
  refine ofUnitRatio_of_encloses hden ?_
  rw [Decimal.value_eq_div, div_mul_eq_mul_div] at h
  exact_mod_cast h

end GraphQLCheck
