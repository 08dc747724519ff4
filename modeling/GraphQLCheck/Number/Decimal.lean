/-
  GraphQLCheck.Number.Decimal
  ───────────────────────────
  Decimal notation and the doubles it denotes.

      Double.ofDecimal — the double nearest to `± digits · 10 ^ exponent`
      Double.ofText?   — the double that a numeral denotes: an optional sign, digits with an
                         optional point (a digit on at least one side of it), an optional exponent;
                         or, in any case, `inf`, `infinity`, `nan`
      Double.scaled    — the double that arithmetic in doubles gives for `significand · 10 ^ exponent`:
                         the significand and the power are rounded on their own, then once more
-/
import GraphQLCheck.Number.Double
import GraphQLCheck.Text.Ascii

namespace GraphQLCheck.Double

/-! ## §1. The nearest double. -/

/-- How many decimal digits a number has; none for zero. -/
def decimalLength (n : Nat) : Nat := if n = 0 then 0 else (Nat.toDigits 10 n).length

/-- The double nearest to `± digits · 10 ^ exponent`.  A number with its leading digit beyond the
400th place, on either side of the point, lies far outside the range of the finite doubles that
are not zero, so no power of ten that large is computed. -/
def ofDecimal (negative : Bool) (digits : Nat) (exponent : Int) : Double :=
  let leading : Int := decimalLength digits + exponent
  if digits = 0 ∨ leading < -400 then .finite (.zero negative)
  else if 400 < leading then .infinite negative
  else .ofRatio negative (digits * Nat.pow 10 exponent.toNat) (Nat.pow 10 (-exponent).toNat)

/-! ## §2. Numerals. -/

/-- An exponent: the mark `e` or `E`, an optional sign, at least one digit.  Without the mark it is
zero. -/
def exponentOfText? : List Char → Option Int
  | [] => some 0
  | mark :: cs => if mark == 'e' || mark == 'E' then Text.readInt? cs else none

/-- A numeral without a sign. -/
def ofUnsignedText? (negative : Bool) (cs : List Char) : Option Double :=
  let (whole, afterWhole) := Text.takeDigits cs
  let (fraction, afterFraction) :=
    match afterWhole with
    | '.' :: rest => Text.takeDigits rest
    | rest => ([], rest)
  if whole.isEmpty && fraction.isEmpty then none
  else (exponentOfText? afterFraction).map fun exponent =>
    ofDecimal negative (Text.natOfDigits (whole ++ fraction)) (exponent - fraction.length)

/-- The double that a numeral denotes, correctly rounded; too large a numeral is infinite. -/
def ofText? (cs : List Char) : Option Double :=
  match cs with
  | '-' :: rest => word true rest
  | '+' :: rest => word false rest
  | rest => word false rest
where
  word (negative : Bool) (cs : List Char) : Option Double :=
    match String.ofList (cs.map Char.toLower) with
    | "inf" | "infinity" => some (.infinite negative)
    | "nan" => some .notANumber
    | _ => ofUnsignedText? negative cs

/-! ## §3. Scaling in double arithmetic. -/

/-- Multiply a double by a power of ten, rounding the power and then the product; what overflows is
refused.  Beyond `10 ^ 308`, the largest power that is a finite double, a number other than zero is
refused at once, and a small one is first divided by that power. -/
def scaled (x : FiniteDouble) (exponent : Int) : Option FiniteDouble :=
  go 4 x exponent
where
  go : Nat → FiniteDouble → Int → Option FiniteDouble
    | 0, x, _ => some (.zero x.negative)
    | rounds + 1, x, exponent =>
      if exponent.natAbs ≤ 308 then
        match ofDecimal false 1 exponent.natAbs with
        | .finite power => (if 0 ≤ exponent then x.mul power else x.div power).finite?
        | _ => none
      else if x.isZero then some x
      else if 0 ≤ exponent then none
      else
        match ofDecimal false 1 308 with
        | .finite power => (x.div power).finite?.bind fun y => go rounds y (exponent + 308)
        | _ => none

end GraphQLCheck.Double
