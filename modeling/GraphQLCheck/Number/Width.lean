/-
  GraphQLCheck.Number.Width
  ─────────────────────────
  The ranges of integers with a fixed number of binary digits.

  Integers are unbounded here; what has to fit a width is tested where it is read.
-/

namespace GraphQLCheck

/-- The integers of 32 bits with a sign. -/
def fitsInt32 (i : Int) : Bool := -2147483648 ≤ i && i < 2147483648

/-- The integers of 64 bits with a sign. -/
def fitsInt64 (i : Int) : Bool := -9223372036854775808 ≤ i && i < 9223372036854775808

/-- The naturals of 64 bits. -/
def fitsNat64 (n : Nat) : Bool := n < 18446744073709551616

/-- The integer if it fits 64 bits with a sign. -/
def int64? (i : Int) : Option Int := if fitsInt64 i then some i else none

end GraphQLCheck
