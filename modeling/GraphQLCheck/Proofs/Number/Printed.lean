/-
  GraphQLCheck.Proofs.Number.Printed
  ──────────────────────────────────
  The texts of doubles.

  The text of a double is a decimal in its interval, however the digits are laid out.  So the text reads back as
  the double, and no two doubles have one text.  It consists of digits, signs, a point and the mark of an
  exponent, and at least one of the last two is in it.

  Main results:
    * `FiniteDouble.encloses_shortest`      — the shortest decimal is in the interval of the double
    * `FloatStyle.readsAs_layOut`           — in every layout, digits are read as the decimal that they are
    * `FloatStyle.ofText?_renderFinite`     — the text of a finite double reads back
    * `FloatStyle.forall_mem_renderFinite`, `FloatStyle.exists_mem_renderFinite` — what it consists of
-/
import GraphQLCheck.Number.Style
import GraphQLCheck.Proofs.Number.Interval
import GraphQLCheck.Proofs.Number.Numeral

namespace GraphQLCheck

/-! ## §1. The shortest decimal. -/

namespace Decimal

theorem value_stripZeros_go (count : Nat) (d : Decimal) : (stripZeros.go count d).value = d.value := by
  induction count generalizing d with
  | zero => rfl
  | succ count ih =>
    unfold stripZeros.go
    split
    next hzero =>
      rw [ih]
      have hdigits : (d.digits : ℚ) = (d.digits / 10 : Nat) * 10 := by
        exact_mod_cast (Nat.div_mul_cancel (Nat.dvd_of_mod_eq_zero hzero)).symm
      unfold value
      rw [zpow_add_one₀ (by norm_num), hdigits]
      ring
    next => rfl

/-- Zeros at the end do not matter. -/
theorem value_stripZeros (d : Decimal) : d.stripZeros.value = d.value := value_stripZeros_go _ d

/-- What is taken is one of the two neighbours, and can be taken. -/
theorem eq_of_nearer {tie : Tie} {below above d : Decimal} {order : Ordering} {takesBelow takesAbove : Bool}
    (h : nearer tie below above order takesBelow takesAbove = some d) :
    d = below ∧ takesBelow = true ∨ d = above ∧ takesAbove = true := by
  unfold nearer at h
  split at h
  next => cases h
  next =>
    cases h
    exact .inl ⟨rfl, rfl⟩
  next =>
    cases h
    exact .inr ⟨rfl, rfl⟩
  next =>
    simp only [and_true]
    split at h
    next =>
      cases h
      exact .inl rfl
    next =>
      cases h
      exact .inr rfl
    next =>
      split at h
      next =>
        cases h
        exact .inr rfl
      next =>
        cases h
        exact ite_eq_or_eq _ _ _

end Decimal

namespace FiniteDouble

variable {x : FiniteDouble}

/-- A decimal is taken only if it reads back. -/
theorem readsBack_of_nearestOnGrid {tie : Tie} {exponent : Int} {d : Decimal}
    (h : x.nearestOnGrid tie exponent = some d) : x.readsBack d = true := by
  unfold nearestOnGrid at h
  rcases Decimal.eq_of_nearer h with ⟨rfl, hbelow⟩ | ⟨rfl, habove⟩
  · exact hbelow
  · exact habove

/-- The decimal of last resort is the double itself. -/
theorem value_exact (x : FiniteDouble) :
    Decimal.value ⟨x.units * Nat.pow 5 1074, -1074⟩ * unitsPerOne = x.units := by
  obtain ⟨places, hplaces, hunits⟩ := cast_unitsPerOne
  have hcast : (-1074 : Int) = -(places : Int) := by
    rw [hplaces]
    rfl
  rw [hcast, ← hplaces]
  have hpow : ((x.units * Nat.pow 5 places : Nat) : ℚ) = x.units * 5 ^ places := by exact_mod_cast rfl
  have hten : (10 : ℚ) ^ places = 5 ^ places * 2 ^ places := by
    rw [← mul_pow]
    norm_num
  unfold Decimal.value
  rw [hpow, hunits, zpow_neg, zpow_natCast, hten]
  field_simp

/-- **The shortest decimal of a double is in its interval.** -/
theorem encloses_shortest (hzero : x.mantissa ≠ 0) (tie : Tie) :
    x.Encloses ((x.shortest tie).value * unitsPerOne) := by
  unfold shortest
  rw [Decimal.value_stripZeros]
  cases hfound : (List.range 17).findSome? fun (n : Nat) => x.nearestOnGrid tie (x.magnitudeOf - (n + 1)) with
  | some d =>
    obtain ⟨n, _, hd⟩ := List.exists_of_findSome?_eq_some hfound
    exact readsBack_iff.1 (readsBack_of_nearestOnGrid hd)
  | none =>
    rw [Option.getD_none, value_exact]
    exact encloses_units hzero

end FiniteDouble

/-! ## §2. Reading digits. -/

namespace Double

section Parts

variable {negative : Bool} {whole fraction tail : List Char} (hwhole : ∀ c ∈ whole, c.isDigit = true)
  (hne : whole ≠ [])
include hwhole hne

/-- Digits with a point are read as the digits, with an exponent that is less by the number of those behind
the point. -/
theorem ofUnsignedText?_point (hfraction : ∀ c ∈ fraction, c.isDigit = true)
    (htail : ∀ c ∈ tail.head?, c.isDigit = false) :
    ofUnsignedText? negative (whole ++ '.' :: (fraction ++ tail)) = (exponentOfText? tail).map fun exponent =>
      ofDecimal negative (Nat.ofDigitChars 10 (whole ++ fraction) 0) (exponent - fraction.length) := by
  have hpoint : ∀ c ∈ ('.' :: (fraction ++ tail)).head?, c.isDigit = false := by
    intro c hc
    cases hc
    rfl
  have hempty : (whole.isEmpty && fraction.isEmpty) = false := by
    rw [List.isEmpty_eq_false_iff.2 hne, Bool.false_and]
  unfold ofUnsignedText?
  rw [Text.takeDigits_of_digits hwhole hpoint]
  -- the digits end at the point, so those behind it are taken next
  show (if (whole.isEmpty && (Text.takeDigits (fraction ++ tail)).1.isEmpty) = true then none
    else (exponentOfText? (Text.takeDigits (fraction ++ tail)).2).map fun exponent =>
      ofDecimal negative (Text.natOfDigits (whole ++ (Text.takeDigits (fraction ++ tail)).1))
        (exponent - (Text.takeDigits (fraction ++ tail)).1.length)) = _
  rw [Text.takeDigits_of_digits hfraction htail, hempty]
  rfl

/-- Without an exponent. -/
theorem ofUnsignedText?_point_end (hfraction : ∀ c ∈ fraction, c.isDigit = true) :
    ofUnsignedText? negative (whole ++ '.' :: fraction) =
      some (ofDecimal negative (Nat.ofDigitChars 10 (whole ++ fraction) 0) (-fraction.length)) := by
  have hend : ∀ c ∈ ([] : List Char).head?, c.isDigit = false := by
    intro c hc
    cases hc
  have hread : ofUnsignedText? negative (whole ++ '.' :: (fraction ++ [])) = _ :=
    ofUnsignedText?_point hwhole hne hfraction hend
  rw [List.append_nil, exponentOfText?, Option.map_some, zero_sub] at hread
  exact hread

/-- Digits without a point are read as they are. -/
theorem ofUnsignedText?_whole (htail : ∀ c ∈ tail.head?, c.isDigit = false ∧ c ≠ '.') :
    ofUnsignedText? negative (whole ++ tail) = (exponentOfText? tail).map fun exponent =>
      ofDecimal negative (Nat.ofDigitChars 10 whole 0) exponent := by
  have hempty : (whole.isEmpty && ([] : List Char).isEmpty) = false := by
    rw [List.isEmpty_eq_false_iff.2 hne, Bool.false_and]
  unfold ofUnsignedText?
  rw [Text.takeDigits_of_digits hwhole fun c hc => (htail c hc).1]
  dsimp only
  split
  next => exact absurd rfl (htail '.' rfl).2
  next =>
    simp only [hempty, List.append_nil, List.length_nil, Nat.cast_zero, sub_zero]
    rfl

end Parts

theorem exponentOfText?_mark {cs : List Char} {exponent : Int} (h : Text.Numeral cs exponent) :
    exponentOfText? ('e' :: cs) = some exponent :=
  Text.readInt?_eq_some_iff.2 h

end Double

/-! ## §3. The layouts. -/

/-- With either sign, a text of digits is read as a decimal with a given value. -/
def Double.ReadsAs (text : List Char) (value : ℚ) : Prop :=
  ∀ negative, ∃ read : Decimal, read.value = value ∧
    ofUnsignedText? negative text = some (ofDecimal negative read.digits read.exponent)

namespace FloatStyle

open Double (ReadsAs)

section Layouts

variable {digits : List Char} (hdigits : ∀ c ∈ digits, c.isDigit = true) (hne : digits ≠ [])

theorem isDigit_of_mem_replicate {count : Nat} : ∀ c ∈ List.replicate count '0', c.isDigit = true := by
  intro c hc
  rw [List.eq_of_mem_replicate hc]
  rfl

include hdigits

/-- All digits behind the point, after some zeros. -/
theorem readsAs_behindPoint (count : Nat) :
    ReadsAs (['0', '.'] ++ List.replicate count '0' ++ digits)
      (Decimal.value ⟨Nat.ofDigitChars 10 digits 0, -(count + digits.length)⟩) := by
  intro negative
  refine ⟨_, rfl, ?_⟩
  have htext : ['0', '.'] ++ List.replicate count '0' ++ digits =
      ['0'] ++ '.' :: (List.replicate count '0' ++ digits) := rfl
  have hfraction : ∀ c ∈ List.replicate count '0' ++ digits, c.isDigit = true :=
    List.forall_mem_append.2 ⟨isDigit_of_mem_replicate, hdigits⟩
  have hzeros : Nat.ofDigitChars 10 (['0'] ++ (List.replicate count '0' ++ digits)) 0 =
      Nat.ofDigitChars 10 digits 0 := (Text.ofDigitChars_zeros 1 _).trans (Text.ofDigitChars_zeros count digits)
  rw [htext, Double.ofUnsignedText?_point_end (List.forall_mem_singleton.2 rfl) (List.cons_ne_nil _ _) hfraction,
    hzeros, List.length_append, List.length_replicate, Nat.cast_add]

include hne

/-- All digits before the point, with some zeros. -/
theorem readsAs_beforePoint (count : Nat) :
    ReadsAs (digits ++ List.replicate count '0' ++ ['.', '0'])
      (Decimal.value ⟨Nat.ofDigitChars 10 digits 0, count⟩) := by
  intro negative
  refine ⟨⟨Nat.ofDigitChars 10 (digits ++ List.replicate count '0' ++ ['0']) 0, -(1 : Nat)⟩, ?_, ?_⟩
  · -- the zero behind the point is one more digit
    have hdigits : Nat.ofDigitChars 10 (digits ++ List.replicate count '0' ++ ['0']) 0 =
        10 ^ (count + 1) * Nat.ofDigitChars 10 digits 0 := by
      rw [List.append_assoc, ← List.replicate_succ', Nat.ofDigitChars_append, Nat.ofDigitChars_replicate_zero]
    unfold Decimal.value
    rw [hdigits, zpow_neg, zpow_natCast, zpow_natCast]
    push_cast
    field_simp
    ring
  · have hwhole : ∀ c ∈ digits ++ List.replicate count '0', c.isDigit = true :=
      List.forall_mem_append.2 ⟨hdigits, isDigit_of_mem_replicate⟩
    exact Double.ofUnsignedText?_point_end hwhole (List.append_ne_nil_of_left_ne_nil hne _)
      (List.forall_mem_singleton.2 rfl)

/-- The point among the digits. -/
theorem readsAs_amongDigits {place : Nat} (hplace : 0 < place) :
    ReadsAs (digits.take place ++ ['.'] ++ digits.drop place)
      (Decimal.value ⟨Nat.ofDigitChars 10 digits 0, -(digits.length - place : Nat)⟩) := by
  intro negative
  refine ⟨_, rfl, ?_⟩
  have hwhole : digits.take place ≠ [] := by
    rw [Ne, List.take_eq_nil_iff, not_or]
    exact ⟨hplace.ne', hne⟩
  rw [List.append_assoc, List.singleton_append,
    Double.ofUnsignedText?_point_end (fun c hc => hdigits c (List.mem_of_mem_take hc)) hwhole
      fun c hc => hdigits c (List.mem_of_mem_drop hc), List.take_append_drop, List.length_drop]

/-- The point behind the first digit, and an exponent. -/
theorem readsAs_scientific {exponent : List Char} {leading : Int} (hexponent : Text.Numeral exponent leading) :
    ReadsAs (digits.take 1 ++ (if (digits.drop 1).isEmpty then [] else '.' :: digits.drop 1) ++ 'e' :: exponent)
      (Decimal.value ⟨Nat.ofDigitChars 10 digits 0, leading - (digits.length - 1 : Nat)⟩) := by
  intro negative
  refine ⟨_, rfl, ?_⟩
  have hfirst : ∀ c ∈ digits.take 1, c.isDigit = true := fun c hc => hdigits c (List.mem_of_mem_take hc)
  have hwhole : digits.take 1 ≠ [] := by
    rw [Ne, List.take_eq_nil_iff, not_or]
    exact ⟨Nat.one_ne_zero, hne⟩
  have hmark : ∀ c ∈ ('e' :: exponent).head?, c.isDigit = false ∧ c ≠ '.' := by
    intro c hc
    cases hc
    exact ⟨rfl, by decide⟩
  split
  next hempty =>
    -- a single digit stands without a point
    have hdrop := List.isEmpty_iff.1 hempty
    have htake : digits.take 1 = digits := by rw [← List.append_nil (digits.take 1), ← hdrop, List.take_append_drop]
    have hlength : digits.length - 1 = 0 := by rw [← List.length_drop, hdrop, List.length_nil]
    rw [htake] at hfirst hwhole
    rw [htake, List.append_nil, Double.ofUnsignedText?_whole hfirst hwhole hmark,
      Double.exponentOfText?_mark hexponent, Option.map_some, hlength, Nat.cast_zero, sub_zero]
  next =>
    have htext : digits.take 1 ++ '.' :: digits.drop 1 ++ 'e' :: exponent =
        digits.take 1 ++ '.' :: (digits.drop 1 ++ 'e' :: exponent) := by simp
    rw [htext, Double.ofUnsignedText?_point hfirst hwhole (fun c hc => hdigits c (List.mem_of_mem_drop hc))
      (fun c hc => (hmark c hc).1), Double.exponentOfText?_mark hexponent, Option.map_some,
      List.take_append_drop, List.length_drop]

end Layouts

variable {style : FloatStyle}

/-- What stands behind the mark of an exponent is the exponent. -/
theorem numeral_exponent (hsign : style.positiveExponentSign = "" ∨ style.positiveExponentSign = "+")
    (leading : Int) : Text.Numeral
      ((if leading < 0 then ['-'] else style.positiveExponentSign.toList) ++ Nat.toDigits 10 leading.natAbs)
      leading := by
  by_cases hneg : leading < 0
  · have hleading : leading = -(leading.natAbs : Int) := by omega
    rw [if_pos hneg]
    conv => rhs; rw [hleading]
    exact Text.numeral_minus_toDigits _
  · have hleading : leading = leading.natAbs := by omega
    rw [if_neg hneg]
    conv => rhs; rw [hleading]
    rcases hsign with hsign | hsign
    · rw [hsign]
      exact Text.numeral_toDigits _
    · rw [hsign]
      exact Text.numeral_plus_toDigits _

/-- **In every layout, digits are read as the decimal that they are.** -/
theorem readsAs_layOut (hsign : style.positiveExponentSign = "" ∨ style.positiveExponentSign = "+") (d : Decimal) :
    ReadsAs (style.layOut (Nat.toDigits 10 d.digits) ((Nat.toDigits 10 d.digits).length + d.exponent)) d.value := by
  obtain ⟨n, exponent⟩ := d
  have hdigits : ∀ c ∈ Nat.toDigits 10 n, c.isDigit = true := fun _ => Text.isDigit_of_mem_toDigits
  have hvalue : Nat.ofDigitChars 10 (Nat.toDigits 10 n) 0 = n := Nat.ofDigitChars_ten_toDigits
  have hne : Nat.toDigits 10 n ≠ [] := Nat.toDigits_ne_nil
  dsimp only
  -- from here on only the digits matter, which may be any
  generalize Nat.toDigits 10 n = digits at *
  subst hvalue
  have hpositive : 0 < digits.length := List.length_pos_iff.2 hne
  unfold layOut
  dsimp only
  split
  next =>
    split
    next hpoint =>
      have hexponent : exponent = -(((-(digits.length + exponent)).toNat : Nat) + digits.length) := by omega
      conv => rhs; rw [hexponent]
      exact readsAs_behindPoint hdigits _
    next hpoint =>
      split
      next hlength =>
        have hexponent : exponent = ((digits.length + exponent).toNat - digits.length : Nat) := by omega
        conv => rhs; rw [hexponent]
        exact readsAs_beforePoint hdigits hne _
      next hlength =>
        have hexponent : exponent = -(digits.length - (digits.length + exponent).toNat : Nat) := by omega
        conv => rhs; rw [hexponent]
        exact readsAs_amongDigits hdigits hne (by omega)
  next =>
    have hexponent : exponent = digits.length + exponent - 1 - (digits.length - 1 : Nat) := by omega
    conv => rhs; rw [hexponent]
    rw [List.append_assoc, List.append_assoc]
    exact readsAs_scientific hdigits hne (numeral_exponent hsign _)

/-- The characters of a layout are digits, the point, and what exponents are written with. -/
theorem forall_mem_layOut {holds : Char → Prop} (hpoint : holds '.') (hmark : holds 'e') (hminus : holds '-')
    (hplus : ∀ c ∈ style.positiveExponentSign.toList, holds c) (hdigit : ∀ c, c.isDigit = true → holds c)
    {digits : List Char} (hdigits : ∀ c ∈ digits, c.isDigit = true) (point : Int) :
    ∀ c ∈ style.layOut digits point, holds c := by
  have hzeros : ∀ count, ∀ c ∈ List.replicate count '0', holds c :=
    fun _ c hc => hdigit c (isDigit_of_mem_replicate c hc)
  have hall : ∀ c ∈ digits, holds c := fun c hc => hdigit c (hdigits c hc)
  have htake : ∀ count, ∀ c ∈ digits.take count, holds c := fun _ c hc => hall c (List.mem_of_mem_take hc)
  have hdrop : ∀ count, ∀ c ∈ digits.drop count, holds c := fun _ c hc => hall c (List.mem_of_mem_drop hc)
  unfold layOut
  dsimp only
  split
  next =>
    split
    next =>
      have hstart : ∀ c ∈ ['0', '.'], holds c := by simp [hpoint, hdigit]
      exact List.forall_mem_append.2 ⟨List.forall_mem_append.2 ⟨hstart, hzeros _⟩, hall⟩
    next =>
      split
      next =>
        have hend : ∀ c ∈ ['.', '0'], holds c := by simp [hpoint, hdigit]
        exact List.forall_mem_append.2 ⟨List.forall_mem_append.2 ⟨hall, hzeros _⟩, hend⟩
      next =>
        exact List.forall_mem_append.2
          ⟨List.forall_mem_append.2 ⟨htake _, List.forall_mem_singleton.2 hpoint⟩, hdrop _⟩
  next =>
    refine List.forall_mem_append.2 ⟨List.forall_mem_append.2 ⟨List.forall_mem_append.2
      ⟨List.forall_mem_append.2 ⟨htake _, ?_⟩, List.forall_mem_singleton.2 hmark⟩, ?_⟩, ?_⟩
    · split
      · exact List.forall_mem_nil _
      · exact List.forall_mem_cons.2 ⟨hpoint, hdrop _⟩
    · split
      · exact List.forall_mem_singleton.2 hminus
      · exact hplus
    · exact fun c hc => hdigit c (Text.isDigit_of_mem_toDigits hc)

/-- In every layout there is a point or the mark of an exponent. -/
theorem exists_mem_layOut (digits : List Char) (point : Int) : ∃ c ∈ style.layOut digits point, c = '.' ∨ c = 'e' := by
  unfold layOut
  dsimp only
  split
  next =>
    split
    next => exact ⟨'.', by simp, .inl rfl⟩
    next =>
      split
      next => exact ⟨'.', by simp, .inl rfl⟩
      next => exact ⟨'.', by simp, .inl rfl⟩
  next => exact ⟨'e', by simp, .inr rfl⟩

/-- In every layout, a digit stands first. -/
theorem exists_digit_layOut {digits : List Char} (hdigits : ∀ c ∈ digits, c.isDigit = true) (hne : digits ≠ [])
    (point : Int) : ∃ c rest, c.isDigit = true ∧ style.layOut digits point = c :: rest := by
  obtain ⟨c, digits, rfl⟩ := List.exists_cons_of_ne_nil hne
  have hc : c.isDigit = true := hdigits c (List.mem_cons_self ..)
  unfold layOut
  dsimp only
  split
  next =>
    split
    next => exact ⟨'0', _, rfl, rfl⟩
    next hpoint =>
      split
      next => exact ⟨c, _, hc, rfl⟩
      next =>
        obtain ⟨place, hplace⟩ : ∃ place, point.toNat = place + 1 := ⟨point.toNat - 1, by omega⟩
        rw [hplace]
        exact ⟨c, _, hc, rfl⟩
  next => exact ⟨c, _, hc, rfl⟩

end FloatStyle

/-! ## §4. The texts of doubles. -/

namespace Double

theorem toLower_of_isDigit {c : Char} (h : c.isDigit = true) : c.toLower = c := by
  unfold Char.toLower
  rw [dif_neg]
  rintro ⟨hupper, _⟩
  exact absurd (UInt32.le_trans hupper (Text.val_le_of_isDigit h)) (by decide)

/-- A text that begins with a digit is no word. -/
theorem word_of_isDigit {c : Char} (h : c.isDigit = true) (negative : Bool) (rest : List Char) :
    ofText?.word negative (c :: rest) = ofUnsignedText? negative (c :: rest) := by
  have hfirst : ∀ (word : String) (d : Char) (ds : List Char), word.toList = d :: ds → d.isDigit = false →
      String.ofList ((c :: rest).map Char.toLower) ≠ word := by
    intro word d ds hword hd heq
    rw [← heq, String.toList_ofList, List.map_cons, toLower_of_isDigit h] at hword
    injection hword with hcd _
    rw [hcd, hd] at h
    cases h
  unfold ofText?.word
  split
  next heq => exact absurd heq (hfirst "inf" 'i' ['n', 'f'] rfl rfl)
  next heq => exact absurd heq (hfirst "infinity" 'i' ['n', 'f', 'i', 'n', 'i', 't', 'y'] rfl rfl)
  next heq => exact absurd heq (hfirst "nan" 'n' ['a', 'n'] rfl rfl)
  next => rfl

/-- A text that begins with a digit, after a minus sign or not, is read as a numeral. -/
theorem ofText?_signed {c : Char} (h : c.isDigit = true) (negative : Bool) (rest : List Char) :
    ofText? ((if negative then ['-'] else []) ++ c :: rest) = ofUnsignedText? negative (c :: rest) := by
  cases negative with
  | true => exact word_of_isDigit h true rest
  | false =>
    show ofText? (c :: rest) = _
    unfold ofText?
    split
    next heq =>
      injection heq with hc _
      rw [hc] at h
      exact absurd h (by decide)
    next heq =>
      injection heq with hc _
      rw [hc] at h
      exact absurd h (by decide)
    next => exact word_of_isDigit h false rest

end Double

namespace FiniteDouble

/-- There is one zero of either sign. -/
theorem eq_zero_of_isZero {x : FiniteDouble} (h : x.isZero = true) : x = .zero x.negative := by
  obtain ⟨negative, mantissa, exponent, hmantissa, hexponent, hnormalized⟩ := x
  have hzero : mantissa = 0 := beq_iff_eq.1 h
  subst hzero
  have hexponent : exponent = 0 := hnormalized.resolve_right (by decide)
  subst hexponent
  rfl

end FiniteDouble

namespace FloatStyle

variable {style : FloatStyle}

/-- The text of the magnitude of a double. -/
def magnitudeText (style : FloatStyle) (x : FiniteDouble) : List Char :=
  if x.isZero then ['0', '.', '0']
  else
    let digits := Nat.toDigits 10 (x.shortest style.tie).digits
    style.layOut digits (digits.length + (x.shortest style.tie).exponent)

/-- The text of a double is that of its magnitude, after a minus sign if it is negative. -/
theorem toList_renderFinite (style : FloatStyle) (x : FiniteDouble) :
    (style.renderFinite x).toList = (if x.negative then ['-'] else []) ++ style.magnitudeText x := by
  unfold renderFinite magnitudeText
  dsimp only
  split
  · exact String.toList_ofList
  · exact String.toList_ofList

theorem exists_digit_magnitudeText (style : FloatStyle) (x : FiniteDouble) :
    ∃ c rest, c.isDigit = true ∧ style.magnitudeText x = c :: rest := by
  unfold magnitudeText
  split
  · exact ⟨'0', _, rfl, rfl⟩
  · exact exists_digit_layOut (fun _ => Text.isDigit_of_mem_toDigits) Nat.toDigits_ne_nil _

/-- The magnitude is read as the double. -/
theorem ofUnsignedText?_magnitudeText
    (hsign : style.positiveExponentSign = "" ∨ style.positiveExponentSign = "+") (x : FiniteDouble) :
    Double.ofUnsignedText? x.negative (style.magnitudeText x) = some (.finite x) := by
  unfold magnitudeText
  split
  next hzero =>
    have hread : Double.ofUnsignedText? x.negative (['0'] ++ '.' :: ['0']) = _ :=
      Double.ofUnsignedText?_point_end (List.forall_mem_singleton.2 rfl) (List.cons_ne_nil _ _)
        (List.forall_mem_singleton.2 rfl)
    refine hread.trans ?_
    conv => rhs; rw [x.eq_zero_of_isZero hzero]
    rfl
  next hzero =>
    have hmantissa : x.mantissa ≠ 0 := fun h => hzero (beq_iff_eq.2 h)
    obtain ⟨read, hvalue, hread⟩ := readsAs_layOut hsign (x.shortest style.tie) x.negative
    rw [hread]
    refine congrArg some (Double.ofDecimal_of_encloses hmantissa ?_)
    rw [hvalue]
    exact FiniteDouble.encloses_shortest hmantissa style.tie

/-- **The text of a finite double reads back.** -/
theorem ofText?_renderFinite (hsign : style.positiveExponentSign = "" ∨ style.positiveExponentSign = "+")
    (x : FiniteDouble) : Double.ofText? (style.renderFinite x).toList = some (.finite x) := by
  obtain ⟨c, rest, hc, htext⟩ := style.exists_digit_magnitudeText x
  rw [toList_renderFinite, htext, Double.ofText?_signed hc, ← htext, ofUnsignedText?_magnitudeText hsign]

/-! ## §5. The characters in the texts. -/

/-- The text of a finite double begins with a digit or with the minus sign. -/
theorem exists_cons_renderFinite (style : FloatStyle) (x : FiniteDouble) :
    ∃ c rest, (style.renderFinite x).toList = c :: rest ∧ (c.isDigit = true ∨ c = '-') := by
  obtain ⟨c, rest, hc, htext⟩ := style.exists_digit_magnitudeText x
  rw [toList_renderFinite, htext]
  split
  · exact ⟨'-', c :: rest, rfl, .inr rfl⟩
  · exact ⟨c, rest, rfl, .inl hc⟩

/-- The characters of the text of a finite double are digits, the minus sign, the point, and what exponents are
written with. -/
theorem forall_mem_renderFinite (holds : Char → Prop) (hpoint : holds '.') (hmark : holds 'e')
    (hminus : holds '-') (hplus : ∀ c ∈ style.positiveExponentSign.toList, holds c)
    (hdigit : ∀ c, c.isDigit = true → holds c) (x : FiniteDouble) :
    ∀ c ∈ (style.renderFinite x).toList, holds c := by
  have hzero : ∀ c ∈ ['0', '.', '0'], holds c := by simp [hpoint, hdigit]
  rw [toList_renderFinite]
  refine List.forall_mem_append.2 ⟨?_, ?_⟩
  · split
    · exact List.forall_mem_singleton.2 hminus
    · exact List.forall_mem_nil _
  · unfold magnitudeText
    split
    · exact hzero
    · exact forall_mem_layOut hpoint hmark hminus hplus hdigit (fun _ => Text.isDigit_of_mem_toDigits) _

/-- In the text of a finite double there is a point or the mark of an exponent. -/
theorem exists_mem_renderFinite (style : FloatStyle) (x : FiniteDouble) :
    ∃ c ∈ (style.renderFinite x).toList, c = '.' ∨ c = 'e' := by
  have hmagnitude : ∃ c ∈ style.magnitudeText x, c = '.' ∨ c = 'e' := by
    unfold magnitudeText
    split
    · exact ⟨'.', by simp, .inl rfl⟩
    · exact exists_mem_layOut _ _
  obtain ⟨c, hmem, hc⟩ := hmagnitude
  rw [toList_renderFinite]
  exact ⟨c, List.mem_append_right _ hmem, hc⟩

end FloatStyle

end GraphQLCheck
