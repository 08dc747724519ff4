/-
  GraphQLCheck.Proofs.Number.Nearest
  ──────────────────────────────────
  Numbers as what they are exactly, and the integers nearest to them.

  A double is a count of units, so it is a rational number, and so is every number of a runtime value.
  Rounding is described by the number alone: the nearest integer is one that no other is nearer than, and of
  two equally near ones the even one.  There is only one such integer, so whatever has been shown to be the
  nearest is what rounding yields.

      NearestInteger     — the integer nearest to a rational, a half going to the even neighbour
      FiniteDouble.value — the rational that a double is

  Main facts:
    * `NearestInteger.eq`                     — there is only one
    * `nearestInteger_roundHalfEven`          — rounding a fraction yields it
    * `JsonNumber.nearestInteger_roundToInt`  — and so does rounding a number
    * `FiniteDouble.exactInt?_eq_some_iff`    — a double has an exact integer if it is one
-/
import GraphQLCheck.Proofs.Value.Finite
import GraphQLCheck.Shape.Primitive
import Mathlib.Algebra.Order.Field.Basic
import Mathlib.Algebra.Order.Ring.Int
import Mathlib.Data.Rat.Cast.Order
import Mathlib.Tactic.FieldSimp
import Mathlib.Tactic.Linarith
import Mathlib.Tactic.Ring

namespace GraphQLCheck

/-! ## §1. The nearest integer. -/

/-- An integer is the nearest to a number: none is nearer, and if another one is as near, it is even. -/
structure NearestInteger (x : ℚ) (r : ℤ) : Prop where
  nearest : ∀ other : ℤ, |x - r| ≤ |x - other|
  even_of_tie : ∀ other : ℤ, other ≠ r → |x - other| = |x - r| → Even r

namespace NearestInteger

variable {x : ℚ} {r r' : ℤ}

/-- Two integers that are not the same are at least one apart. -/
theorem one_le_of_ne (h : r ≠ r') : 1 ≤ |x - r| + |x - r'| := by
  have happart : (1 : ℚ) ≤ |(r : ℚ) - r'| := by
    have hint : (1 : ℤ) ≤ |r - r'| := Int.one_le_abs (sub_ne_zero.2 h)
    exact_mod_cast hint
  calc (1 : ℚ) ≤ |(r : ℚ) - r'| := happart
    _ = |(x - r') - (x - r)| := by rw [sub_sub_sub_cancel_left]
    _ ≤ |x - r'| + |x - r| := abs_sub _ _
    _ = |x - r| + |x - r'| := add_comm _ _

/-- What is at most a half away is the nearest, if it is even in case it is just a half. -/
theorem of_le_half (hle : |x - r| ≤ 1 / 2) (heven : |x - r| = 1 / 2 → Even r) : NearestInteger x r where
  nearest other := by
    by_cases hother : r = other
    · rw [hother]
    · have happart := one_le_of_ne (x := x) hother
      linarith
  even_of_tie other hother htie := by
    have happart := one_le_of_ne (x := x) hother
    exact heven (by linarith)

theorem of_lt_half (h : |x - r| < 1 / 2) : NearestInteger x r :=
  of_le_half h.le fun hhalf => absurd hhalf h.ne

/-- An integer is nearest to itself. -/
theorem self (i : ℤ) : NearestInteger i i := by
  apply of_lt_half
  rw [sub_self, abs_zero]
  norm_num

theorem neg (h : NearestInteger x r) : NearestInteger (-x) (-r) := by
  have hdistance : ∀ other : ℤ, |-x - (other : ℚ)| = |x - ((-other : ℤ) : ℚ)| := by
    intro other
    rw [← abs_neg]
    push_cast
    ring_nf
  constructor
  · intro other
    rw [hdistance, hdistance, neg_neg]
    exact h.nearest (-other)
  · intro other hother htie
    rw [hdistance, hdistance, neg_neg] at htie
    exact (h.even_of_tie (-other) (fun heq => hother (by rw [← heq, neg_neg])) htie).neg

/-- Of two integers that are the nearest, none is the less one: half-way between them there would be one
that is nearer than both. -/
theorem not_lt (h : NearestInteger x r) (h' : NearestInteger x r') : ¬r < r' := by
  intro hlt
  have htie : |x - r| = |x - r'| := le_antisymm (h.nearest r') (h'.nearest r)
  -- both are even, so they are at least two apart
  obtain ⟨k, hk⟩ := h.even_of_tie r' (ne_of_gt hlt) htie.symm
  obtain ⟨l, hl⟩ := h'.even_of_tie r (ne_of_lt hlt) htie
  have htwo : (r : ℚ) + 2 ≤ r' := by
    have hint : r + 2 ≤ r' := by omega
    exact_mod_cast hint
  have hmiddle : x = (r + r') / 2 := by
    rcases abs_eq_abs.1 htie with heq | heq
    · linarith
    · linarith
  have hnearer := h.nearest (r + 1)
  push_cast at hnearer
  rw [hmiddle, abs_of_nonneg (by linarith), abs_of_nonneg (by linarith)] at hnearer
  linarith

/-- **There is only one nearest integer.** -/
theorem eq (h : NearestInteger x r) (h' : NearestInteger x r') : r = r' :=
  le_antisymm (Int.not_lt.1 (h'.not_lt h)) (Int.not_lt.1 (h.not_lt h'))

end NearestInteger

/-- **Rounding a fraction yields the nearest integer.** -/
theorem nearestInteger_roundHalfEven (num : Nat) {den : Nat} (hden : 0 < den) :
    NearestInteger ((num : ℚ) / den) (roundHalfEven num den : Nat) := by
  have hpos : (0 : ℚ) < den := by exact_mod_cast hden
  have hsplit : (num : ℚ) = den * (num / den : Nat) + (num % den : Nat) := by
    exact_mod_cast (Nat.div_add_mod num den).symm
  have hdistance : ∀ n : Nat,
      (num : ℚ) / den - ((n : Int) : ℚ) = ((num / den : Nat) - n) + ((num % den : Nat) : ℚ) / den := by
    intro n
    rw [hsplit, Int.cast_natCast]
    field_simp
    ring
  -- what is left of the fraction is compared with a half
  obtain ⟨rest, hrest⟩ : ∃ rest : ℚ, rest = ((num % den : Nat) : ℚ) / den := ⟨_, rfl⟩
  have hnonneg : 0 ≤ rest := by
    rw [hrest]
    positivity
  have hlt : rest < 1 / 2 ↔ 2 * (num % den) < den := by
    rw [hrest, div_lt_div_iff₀ hpos two_pos, one_mul, mul_comm]
    exact_mod_cast Iff.rfl
  have hgt : 1 / 2 < rest ↔ den < 2 * (num % den) := by
    rw [hrest, div_lt_div_iff₀ two_pos hpos, one_mul, mul_comm _ (2 : ℚ)]
    exact_mod_cast Iff.rfl
  have hone : rest < 1 := by
    rw [hrest, div_lt_one hpos]
    exact_mod_cast Nat.mod_lt num hden
  simp only [roundHalfEven, ← hlt, ← hgt]
  split
  next hlow =>
    apply NearestInteger.of_lt_half
    rw [hdistance, ← hrest, sub_self, zero_add, abs_of_nonneg hnonneg]
    exact hlow
  next hlow =>
    split
    next hhigh =>
      apply NearestInteger.of_lt_half
      rw [hdistance, ← hrest, Nat.cast_succ, abs_of_nonpos (by linarith)]
      linarith
    next hhigh =>
      -- just a half is left: up from an odd integral part, and down from an even one
      have hhalf : rest = 1 / 2 := le_antisymm (not_lt.1 hhigh) (not_lt.1 hlow)
      have heven : (num / den + num / den % 2) % 2 = 0 := by omega
      refine NearestInteger.of_le_half ?_ fun _ => (Int.even_coe_nat _).2 (Nat.even_iff.2 heven)
      rw [hdistance, ← hrest, hhalf, Nat.cast_add, sub_add_cancel_left]
      rcases Nat.mod_two_eq_zero_or_one (num / den) with hparity | hparity
      · rw [hparity]
        norm_num
      · rw [hparity]
        norm_num

/-! ## §2. Numbers. -/

theorem unitsPerOne_pos : 0 < unitsPerOne := by
  obtain ⟨places, _, hunits⟩ := unitsPerOne_eq
  rw [hunits]
  exact Nat.two_pow_pos places

namespace FiniteDouble

/-- The rational that a double is. -/
def value (x : FiniteDouble) : ℚ := (x.signed x.units : ℚ) / unitsPerOne

/-- The nearest integer of a magnitude, with its sign. -/
theorem nearestInteger_roundToInt (x : FiniteDouble) : NearestInteger x.value x.roundToInt := by
  have hmagnitude := nearestInteger_roundHalfEven x.units unitsPerOne_pos
  unfold value roundToInt signed
  cases x.negative with
  | false => exact hmagnitude
  | true =>
    have hneg := hmagnitude.neg
    rw [← neg_div] at hneg
    push_cast at hneg ⊢
    exact hneg

theorem natAbs_signed (x : FiniteDouble) (magnitude : Nat) : (x.signed magnitude).natAbs = magnitude := by
  unfold signed
  split
  · rw [Int.natAbs_neg, Int.natAbs_natCast]
  · exact Int.natAbs_natCast magnitude

theorem signed_mul (x : FiniteDouble) (whole factor : Nat) :
    x.signed (whole * factor) = x.signed whole * factor := by
  unfold signed
  split
  · rw [Nat.cast_mul, neg_mul]
  · exact Nat.cast_mul whole factor

/-- **A double has an exact integer exactly if it is that integer.** -/
theorem exactInt?_eq_some_iff {x : FiniteDouble} {i : Int} : x.exactInt? = some i ↔ x.value = i := by
  have hpos : (0 : ℚ) < unitsPerOne := by exact_mod_cast unitsPerOne_pos
  have hvalue : x.value = i ↔ x.signed x.units = i * unitsPerOne := by
    unfold value
    rw [div_eq_iff hpos.ne']
    exact_mod_cast Iff.rfl
  have hne : (unitsPerOne : Int) ≠ 0 := by exact_mod_cast unitsPerOne_pos.ne'
  rw [hvalue]
  unfold exactInt? isIntegral
  by_cases hdvd : unitsPerOne ∣ x.units
  · obtain ⟨whole, hwhole⟩ := hdvd
    rw [hwhole, Nat.mul_mod_right, Nat.mul_div_cancel_left _ unitsPerOne_pos, mul_comm, signed_mul,
      Int.mul_eq_mul_right_iff hne]
    exact Option.some_inj
  · have hrest : (x.units % unitsPerOne == 0) = false :=
      beq_eq_false_iff_ne.2 fun hzero => hdvd (Nat.dvd_of_mod_eq_zero hzero)
    rw [hrest]
    refine ⟨nofun, fun heq => absurd ?_ hdvd⟩
    rw [← x.natAbs_signed x.units, heq, Int.natAbs_mul, Int.natAbs_natCast]
    exact Nat.dvd_mul_left _ _

end FiniteDouble

namespace JsonNumber

/-- The rational that a number is. -/
def value : JsonNumber → ℚ
  | .integer i => i
  | .float x => x.value

/-- **Rounding a number yields the nearest integer.** -/
theorem nearestInteger_roundToInt (n : JsonNumber) : NearestInteger n.value n.roundToInt := by
  cases n with
  | integer i => exact .self i
  | float x => exact x.nearestInteger_roundToInt

end JsonNumber

end GraphQLCheck
