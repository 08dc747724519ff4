/-
  GraphQLCheck.Number.Shortest
  ────────────────────────────
  The fewest decimal digits that read back as a given double.

  The reals that round to a finite double form an interval around it: halfway to the neighbour on
  either side, both ends included exactly when the mantissa is even (`readsBack`).  For 1, 2, … 17
  digits, `shortest` looks at the two decimals of that length next to the double; the first length
  at which one of them reads back wins, and of two that do, the nearer one.  Everything is exact
  arithmetic on naturals.
-/
import GraphQLCheck.Number.Decimal

namespace GraphQLCheck

/-- Which of two equally near neighbours is taken. -/
inductive Tie where
  /-- The even one. -/
  | toEven
  /-- The larger one. -/
  | up
  deriving DecidableEq, Repr

/-- The decimal `digits · 10 ^ exponent`. -/
structure Decimal where
  digits : Nat
  exponent : Int
  deriving DecidableEq, Repr

namespace Decimal

/-- Compare `d · num` with a natural number, where `d` is the decimal and `num` a factor. -/
def compareTimes (d : Decimal) (factor other : Nat) : Ordering :=
  compare (d.digits * Nat.pow 10 d.exponent.toNat * factor) (other * Nat.pow 10 (-d.exponent).toNat)

/-- Of two neighbours the one that is taken, given which of them can be: if both can, the nearer one to a
number with which their middle compares as `order` says. -/
def nearer (tie : Tie) (below above : Decimal) (order : Ordering) : Bool → Bool → Option Decimal
  | false, false => none
  | true, false => some below
  | false, true => some above
  | true, true =>
    match order with
    | .gt => some below
    | .lt => some above
    | .eq =>
      match tie with
      | .up => some above
      | .toEven => some (if below.digits % 2 = 0 then below else above)

/-- The same decimal without trailing zeros in its digits. -/
def stripZeros (d : Decimal) : Decimal := go (decimalPlaces d.digits) d
where
  decimalPlaces (n : Nat) : Nat := Double.decimalLength n
  go : Nat → Decimal → Decimal
    | 0, d => d
    | n + 1, d => if d.digits % 10 = 0 then go n ⟨d.digits / 10, d.exponent + 1⟩ else d

end Decimal

namespace FiniteDouble

/-- Whether the neighbour below is half as far away as the neighbour above. -/
def narrowBelow (x : FiniteDouble) : Bool := x.mantissa == 4503599627370496 && 0 < x.exponent

/-- Whether a decimal lies among the reals that round to the magnitude of `x`. -/
def readsBack (x : FiniteDouble) (d : Decimal) : Bool :=
  let lower := (4 * x.mantissa - if x.narrowBelow then 1 else 2) * Nat.pow 2 x.exponent
  let upper := (4 * x.mantissa + 2) * Nat.pow 2 x.exponent
  let endsIncluded := x.mantissa % 2 == 0
  let fromBelow := d.compareTimes (4 * unitsPerOne) lower
  let fromAbove := d.compareTimes (4 * unitsPerOne) upper
  (fromBelow == .gt || (endsIncluded && fromBelow == .eq)) &&
    (fromAbove == .lt || (endsIncluded && fromAbove == .eq))

/-- Where the leading digit of `x ≠ 0` stands: the least `k` with `|x| < 10 ^ k`.  No double that is
not zero is below `10 ^ -400`. -/
def magnitudeOf (x : FiniteDouble) : Int :=
  (Double.decimalLength (x.units * Nat.pow 10 400 / unitsPerOne) : Int) - 400

/-- The two decimals with the given exponent next to `x`, that is the neighbour below (or equal) and
the one above; the one taken is the nearest that reads back. -/
def nearestOnGrid (x : FiniteDouble) (tie : Tie) (exponent : Int) : Option Decimal :=
  let below : Decimal :=
    ⟨x.units * Nat.pow 10 (-exponent).toNat / (unitsPerOne * Nat.pow 10 exponent.toNat), exponent⟩
  let above : Decimal := ⟨below.digits + 1, exponent⟩
  -- `2 · below + 1` is twice the middle of the two
  let middle : Decimal := ⟨2 * below.digits + 1, exponent⟩
  Decimal.nearer tie below above (middle.compareTimes unitsPerOne (2 * x.units)) (x.readsBack below)
    (x.readsBack above)

/-- The shortest decimal that reads back as the magnitude of `x ≠ 0`, without trailing zeros.  As a
last resort it is the exact value. -/
def shortest (x : FiniteDouble) (tie : Tie) : Decimal :=
  let leading := x.magnitudeOf
  let found := (List.range 17).findSome? fun (n : Nat) => x.nearestOnGrid tie (leading - (n + 1))
  (found.getD ⟨x.units * Nat.pow 5 1074, -1074⟩).stripZeros

end FiniteDouble

end GraphQLCheck
