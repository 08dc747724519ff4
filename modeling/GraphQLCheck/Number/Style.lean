/-
  GraphQLCheck.Number.Style
  ─────────────────────────
  How the digits of a double are laid out.  A `FloatStyle` is the record of a format's decisions;
  `FloatStyle.render` is the one layout function, with the point after, inside or before the
  digits, or with an exponent.
-/
import GraphQLCheck.Number.Shortest

namespace GraphQLCheck

/-- The decisions of a number format.  The leading digit of a number stands at an exponent of ten;
exponents from `plainFrom` up to but not including `plainBelow` are written without an exponent. -/
structure FloatStyle where
  plainFrom : Int
  plainBelow : Int
  /-- What stands before an exponent that is not negative. -/
  positiveExponentSign : String
  /-- Which of two equally near shortest decimals is written. -/
  tie : Tie
  notANumber : String
  infinity : String

namespace FloatStyle

/-- Lay out the digits of a number other than zero, `0.d₁d₂… · 10 ^ point`. -/
def layOut (style : FloatStyle) (digits : List Char) (point : Int) : List Char :=
  let leading := point - 1
  if style.plainFrom ≤ leading ∧ leading < style.plainBelow then
    if point ≤ 0 then
      ['0', '.'] ++ List.replicate (-point).toNat '0' ++ digits
    else if digits.length ≤ point.toNat then
      digits ++ List.replicate (point.toNat - digits.length) '0' ++ ['.', '0']
    else
      digits.take point.toNat ++ ['.'] ++ digits.drop point.toNat
  else
    let rest := digits.drop 1
    let fraction := if rest.isEmpty then [] else '.' :: rest
    let sign := if leading < 0 then ['-'] else style.positiveExponentSign.toList
    digits.take 1 ++ fraction ++ ['e'] ++ sign ++ Nat.toDigits 10 leading.natAbs

/-- The text of a finite double. -/
def renderFinite (style : FloatStyle) (x : FiniteDouble) : String :=
  let sign := if x.negative then ['-'] else []
  if x.isZero then String.ofList (sign ++ ['0', '.', '0'])
  else
    let decimal := x.shortest style.tie
    let digits := Nat.toDigits 10 decimal.digits
    String.ofList (sign ++ style.layOut digits (digits.length + decimal.exponent))

/-- The text of a double. -/
def render (style : FloatStyle) : Double → String
  | .finite x => style.renderFinite x
  | .infinite negative => (if negative then "-" else "") ++ style.infinity
  | .notANumber => style.notANumber

end FloatStyle

end GraphQLCheck
