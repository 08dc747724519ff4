/-
  GraphQLCheck.Proofs.Json.Number
  ───────────────────────────────
  Numbers in JSON text.

  What is read as a number does not depend on the text behind it, unless that goes on like a number.  So a
  number that is read back from its own text is read back wherever it stands.  Integers of 64 bits are.  A
  double need not be: it is computed from its digits in double arithmetic, which may round to a neighbour.

  Main results:
    * `Json.readNumber?_append`        — a number is read without the text behind it
    * `JsonNumber.readsBack_integer`   — an integer of 64 bits is read back from its text
-/
import GraphQLCheck.Json.Printer
import GraphQLCheck.Json.Reader
import GraphQLCheck.Proofs.Value.Finite
import Mathlib.Data.List.TakeDrop
import Mathlib.Data.List.TakeWhile

namespace GraphQLCheck

/-! ## §1. The text behind a number. -/

theorem Text.takeDigits_cons (c : Char) (cs : List Char) :
    takeDigits (c :: cs) = if c.isDigit then (c :: (takeDigits cs).1, (takeDigits cs).2) else ([], c :: cs) := by
  unfold takeDigits
  rw [List.span_eq_takeWhile_dropWhile, List.span_eq_takeWhile_dropWhile, List.takeWhile_cons, List.dropWhile_cons]
  cases c.isDigit <;> rfl

namespace Json

/-- Whether a text does not go on like a number. -/
def endsNumber : List Char → Bool
  | [] => true
  | c :: _ => !c.isDigit && c != '.' && c != 'e' && c != 'E'

theorem endsNumber_cons_iff {c : Char} {rest : List Char} :
    endsNumber (c :: rest) = true ↔ c.isDigit = false ∧ c ≠ '.' ∧ c ≠ 'e' ∧ c ≠ 'E' := by
  simp [endsNumber, and_assoc]

/-- The sign of an exponent, and the text behind it. -/
def exponentSign : List Char → Bool × List Char
  | '-' :: rest => (true, rest)
  | '+' :: rest => (false, rest)
  | rest => (false, rest)

theorem exponentSign_append {text : List Char} (h : text ≠ []) (rest : List Char) :
    exponentSign (text ++ rest) = ((exponentSign text).1, (exponentSign text).2 ++ rest) := by
  cases text with
  | nil => exact absurd rfl h
  | cons sign digits =>
    rw [List.cons_append]
    unfold exponentSign
    split
    next heq =>
      injection heq with hsign hdigits
      subst hsign hdigits
      rfl
    next heq =>
      injection heq with hsign hdigits
      subst hsign hdigits
      rfl
    next hminus hplus =>
      split
      next heq =>
        injection heq with hsign _
        exact absurd (by rw [hsign]) (hminus (digits ++ rest))
      next heq =>
        injection heq with hsign _
        exact absurd (by rw [hsign]) (hplus (digits ++ rest))
      next => rfl

theorem readExponent?_mark {mark : Char} (h : (mark == 'e' || mark == 'E') = true) (text : List Char) :
    readExponent? (mark :: text) =
      let (digits, after) := Text.takeDigits (exponentSign text).2
      if digits.isEmpty then none
      else
        let size : Int := Text.natOfDigits digits
        some (true, if (exponentSign text).1 then -size else size, after) := by
  show (if (mark == 'e' || mark == 'E') = true then _ else _) = _
  rw [if_pos h]
  rfl

theorem readExponent?_other {mark : Char} (h : (mark == 'e' || mark == 'E') = false) (text : List Char) :
    readExponent? (mark :: text) = some (false, 0, mark :: text) := by
  show (if (mark == 'e' || mark == 'E') = true then _ else _) = _
  rw [h]
  rfl

/-- The number that its parts make. -/
def numberOfParts? (negative : Bool) (whole : List Char) (fraction : Option (List Char)) (written : Bool)
    (exponent : Int) : Option JsonNumber :=
  let (n, dropped) := appendDigits 0 whole
  if fraction.isNone && !written && dropped == 0 then
    if !negative then some (.integer n)
    else if 0 < n && fitsInt64 (-(n : Int)) then some (.integer (-(n : Int)))
    else scaledNumber? true n 0
  else
    let (significand, droppedThere) := appendDigits n (fraction.getD [])
    scaledNumber? negative significand
      ((dropped : Int) - ((fraction.getD []).length - droppedThere : Nat) + exponent)

/-- A number is read part by part: digits, a fraction, an exponent. -/
theorem readUnsigned?_eq (negative : Bool) (cs : List Char) :
    readUnsigned? negative cs =
      let whole := (Text.takeDigits cs).1
      if whole.isEmpty || (whole.head? == some '0' && whole.length > 1) then none
      else (readFraction? (Text.takeDigits cs).2).bind fun fraction =>
        (readExponent? fraction.2).bind fun exponent =>
          some (numberOfParts? negative whole fraction.1 exponent.1 exponent.2.1, exponent.2.2) := by
  unfold readUnsigned? numberOfParts?
  simp only []
  split
  next => rfl
  next =>
    congr 1
    funext fraction
    congr 1
    funext exponent
    split
    next => split <;> [rfl; split <;> rfl]
    next => rfl

theorem readNumber?_of_ne {c : Char} (h : c ≠ '-') (cs : List Char) :
    readNumber? (c :: cs) = readUnsigned? false (c :: cs) := by
  unfold readNumber?
  split
  next heq =>
    injection heq with hc
    exact absurd hc h
  next => rfl

/-- A number starts with a minus sign or with a digit. -/
theorem exists_of_readNumber? {cs after : List Char} {n : Option JsonNumber}
    (h : readNumber? cs = some (n, after)) : ∃ c rest, cs = c :: rest ∧ (c = '-' ∨ c.isDigit = true) := by
  cases cs with
  | nil => cases h
  | cons c cs =>
    refine ⟨c, cs, rfl, ?_⟩
    by_cases hc : c = '-'
    · exact .inl hc
    · rw [readNumber?_of_ne hc, readUnsigned?_eq, Text.takeDigits_cons] at h
      cases hdigit : c.isDigit with
      | true => exact .inr rfl
      | false =>
        rw [hdigit] at h
        cases h

section Append

variable {rest : List Char} (hrest : endsNumber rest = true)
include hrest

/-- A run of digits goes on into the text behind the number nowhere. -/
theorem takeDigits_append (cs : List Char) :
    Text.takeDigits (cs ++ rest) = ((Text.takeDigits cs).1, (Text.takeDigits cs).2 ++ rest) := by
  induction cs with
  | nil =>
    cases rest with
    | nil => rfl
    | cons c rest =>
      have hdigit := (endsNumber_cons_iff.1 hrest).1
      show Text.takeDigits (c :: rest) = ([], c :: rest)
      rw [Text.takeDigits_cons, hdigit]
      rfl
  | cons c cs ih =>
    rw [List.cons_append, Text.takeDigits_cons, Text.takeDigits_cons, ih]
    cases c.isDigit <;> rfl

theorem readFraction?_append {cs after : List Char} {fraction : Option (List Char)}
    (h : readFraction? cs = some (fraction, after)) :
    readFraction? (cs ++ rest) = some (fraction, after ++ rest) := by
  by_cases hpoint : ∃ digits, cs = '.' :: digits
  · obtain ⟨digits, rfl⟩ := hpoint
    unfold readFraction? at h ⊢
    simp only [List.cons_append, takeDigits_append hrest] at h ⊢
    split at h
    next => cases h
    next hempty =>
      rw [if_neg hempty]
      cases h
      rfl
  · have hnone : ∀ text : List Char, (∀ digits, text ≠ '.' :: digits) →
        readFraction? text = some (none, text) := by
      intro text hother
      unfold readFraction?
      split
      next digits => exact absurd rfl (hother digits)
      next => rfl
    rw [hnone cs fun digits heq => hpoint ⟨digits, heq⟩] at h
    cases h
    apply hnone
    intro digits heq
    cases cs with
    | nil =>
      have hpoint : rest = '.' :: digits := heq
      rw [hpoint] at hrest
      exact (endsNumber_cons_iff.1 hrest).2.1 rfl
    | cons c cs =>
      injection heq with hc
      exact hpoint ⟨cs, by rw [hc]⟩

theorem readExponent?_append {cs after : List Char} {written : Bool} {exponent : Int}
    (h : readExponent? cs = some (written, exponent, after)) :
    readExponent? (cs ++ rest) = some (written, exponent, after ++ rest) := by
  cases cs with
  | nil =>
    cases h
    cases rest with
    | nil => rfl
    | cons c rest =>
      obtain ⟨_, _, hlower, hupper⟩ := endsNumber_cons_iff.1 hrest
      exact readExponent?_other (by simp [hlower, hupper]) rest
  | cons mark text =>
    rw [List.cons_append]
    cases hmark : mark == 'e' || mark == 'E' with
    | false =>
      rw [readExponent?_other hmark] at h ⊢
      cases h
      rfl
    | true =>
      rw [readExponent?_mark hmark] at h
      have htext : text ≠ [] := by
        rintro rfl
        cases h
      rw [readExponent?_mark hmark, exponentSign_append htext, takeDigits_append hrest]
      simp only [] at h ⊢
      split at h
      next => cases h
      next hempty =>
        rw [if_neg hempty]
        cases h
        rfl

/-- A number without its sign is read without the text behind it. -/
theorem readUnsigned?_append {negative : Bool} {cs after : List Char} {n : Option JsonNumber}
    (h : readUnsigned? negative cs = some (n, after)) :
    readUnsigned? negative (cs ++ rest) = some (n, after ++ rest) := by
  rw [readUnsigned?_eq] at h ⊢
  rw [takeDigits_append hrest]
  simp only [] at h ⊢
  split at h
  next => cases h
  next hwhole =>
    obtain ⟨fraction, hfraction, h⟩ := Option.bind_eq_some_iff.1 h
    obtain ⟨exponent, hexponent, h⟩ := Option.bind_eq_some_iff.1 h
    cases h
    rw [if_neg hwhole, readFraction?_append hrest hfraction, Option.bind_some,
      readExponent?_append hrest hexponent]
    rfl

/-- **A number is read without the text behind it.** -/
theorem readNumber?_append {cs after : List Char} {n : Option JsonNumber}
    (h : readNumber? cs = some (n, after)) : readNumber? (cs ++ rest) = some (n, after ++ rest) := by
  by_cases hminus : ∃ digits, cs = '-' :: digits
  · obtain ⟨digits, rfl⟩ := hminus
    exact readUnsigned?_append hrest h
  · cases cs with
    | nil => cases h
    | cons c cs =>
      have hc : c ≠ '-' := fun hc => hminus ⟨cs, by rw [hc]⟩
      rw [readNumber?_of_ne hc] at h
      rw [List.cons_append, readNumber?_of_ne hc]
      exact readUnsigned?_append hrest h

end Append

/-! ## §2. Integers. -/

theorem le_ofDigitChars (digits : List Char) (n : Nat) : n ≤ Nat.ofDigitChars 10 digits n := by
  induction digits generalizing n with
  | nil => exact Nat.le_of_eq Nat.ofDigitChars_nil.symm
  | cons c digits ih =>
    rw [Nat.ofDigitChars_cons]
    have hnext := ih (10 * n + (c.toNat - '0'.toNat))
    omega

/-- No digit is left out of a number that fits 64 bits. -/
theorem appendDigits_of_fits {digits : List Char} {n : Nat}
    (h : fitsNat64 (Nat.ofDigitChars 10 digits n) = true) :
    appendDigits n digits = (Nat.ofDigitChars 10 digits n, 0) := by
  induction digits generalizing n with
  | nil => rw [Nat.ofDigitChars_nil, appendDigits]
  | cons c digits ih =>
    rw [Nat.ofDigitChars_cons] at h ⊢
    have hle := le_ofDigitChars digits (10 * n + (c.toNat - '0'.toNat))
    have hnext : fitsNat64 (10 * n + (c.toNat - '0'.toNat)) = true := by
      unfold fitsNat64 at h ⊢
      rw [decide_eq_true_eq] at h ⊢
      omega
    rw [appendDigits]
    show (if fitsNat64 (10 * n + (c.toNat - '0'.toNat)) = true then
      appendDigits (10 * n + (c.toNat - '0'.toNat)) digits else _) = _
    rw [if_pos hnext, ih h]

/-- A number other than zero has no leading zero. -/
theorem head?_toDigits_ne {n : Nat} (h : 0 < n) : (Nat.toDigits 10 n).head? ≠ some '0' := by
  induction n using Nat.strongRecOn with
  | ind n ih =>
    by_cases hlt : n < 10
    · have hdigit : ∀ d < 10, 0 < d → d.digitChar ≠ '0' := by decide
      rw [Nat.toDigits_of_lt_base hlt]
      intro hzero
      exact hdigit n hlt h (Option.some.inj hzero)
    · rw [Nat.toDigits_of_base_le (by decide) (Nat.le_of_not_lt hlt),
        List.head?_append, Option.or_of_isSome (List.isSome_head?.2 Nat.toDigits_ne_nil)]
      exact ih (n / 10) (by omega) (by omega)

theorem takeDigits_toDigits (n : Nat) : Text.takeDigits (Nat.toDigits 10 n) = (Nat.toDigits 10 n, []) := by
  have hdigit : ∀ c ∈ Nat.toDigits 10 n, c.isDigit = true :=
    fun c hc => Nat.isDigit_of_mem_toDigits (by decide) (by decide) hc
  unfold Text.takeDigits
  rw [List.span_eq_takeWhile_dropWhile, List.takeWhile_eq_self_iff.2 hdigit, List.dropWhile_eq_nil_iff.2 hdigit]

/-- The digits of a natural number of 64 bits are read as what the sign makes of it. -/
theorem readUnsigned?_toDigits {n : Nat} (h : fitsNat64 n = true) (negative : Bool) :
    readUnsigned? negative (Nat.toDigits 10 n) =
      some (if !negative then some (.integer n)
        else if 0 < n && fitsInt64 (-(n : Int)) then some (.integer (-(n : Int)))
        else scaledNumber? true n 0, []) := by
  have hleading : ((Nat.toDigits 10 n).isEmpty ||
      ((Nat.toDigits 10 n).head? == some '0' && (Nat.toDigits 10 n).length > 1)) = false := by
    rw [Bool.or_eq_false_iff, Bool.and_eq_false_iff]
    refine ⟨List.isEmpty_eq_false_iff.2 Nat.toDigits_ne_nil, ?_⟩
    cases n with
    | zero => exact .inr rfl
    | succ n => exact .inl (beq_eq_false_iff_ne.2 (head?_toDigits_ne (Nat.succ_pos n)))
  have hdigits : appendDigits 0 (Nat.toDigits 10 n) = (n, 0) := by
    have hvalue : Nat.ofDigitChars 10 (Nat.toDigits 10 n) 0 = n := Nat.ofDigitChars_ten_toDigits
    rw [appendDigits_of_fits (by rw [hvalue]; exact h), hvalue]
  rw [readUnsigned?_eq, takeDigits_toDigits]
  simp only []
  rw [hleading]
  show some (numberOfParts? negative (Nat.toDigits 10 n) none false 0, []) = _
  unfold numberOfParts?
  rw [hdigits]
  simp only [Option.isNone_none, Bool.not_false, Bool.and_true, beq_self_eq_true, if_true]

end Json

namespace JsonNumber

/-- A number is read back from its text. -/
def ReadsBack (n : JsonNumber) : Prop := Json.readNumber? n.render.toList = some (some n, [])

/-- **An integer of 64 bits is read back from its text.** -/
theorem readsBack_integer {i : Int} (h : (JsonNumber.integer i).isSized = true) :
    (JsonNumber.integer i).ReadsBack := by
  have hsized : fitsInt64 i = true ∨ 0 ≤ i ∧ fitsNat64 i.toNat = true := by
    simpa [isSized] using h
  have htext : (JsonNumber.integer i).render.toList =
      (if i < 0 then ['-'] else []) ++ Nat.toDigits 10 i.natAbs := String.toList_ofList
  have hnat : fitsNat64 i.natAbs = true := by
    unfold fitsInt64 fitsNat64 at *
    simp only [Bool.and_eq_true, decide_eq_true_eq] at hsized ⊢
    omega
  unfold ReadsBack
  rw [htext]
  by_cases hneg : i < 0
  · have hint : fitsInt64 i = true := hsized.resolve_right fun hpos => absurd hpos.1 (by omega)
    have hvalue : -(i.natAbs : Int) = i := by omega
    rw [if_pos hneg]
    show Json.readUnsigned? true (Nat.toDigits 10 i.natAbs) = _
    rw [Json.readUnsigned?_toDigits hnat true, hvalue, hint]
    have hpos : 0 < i.natAbs := by omega
    simp [hpos]
  · have hvalue : (i.natAbs : Int) = i := by omega
    rw [if_neg hneg, List.nil_append]
    obtain ⟨c, digits, hdigits⟩ := List.exists_cons_of_ne_nil (Nat.toDigits_ne_nil (n := i.natAbs) (b := 10))
    have hminus : c ≠ '-' := by
      have hdigit : c.isDigit = true :=
        Nat.isDigit_of_mem_toDigits (by decide) (by decide) (hdigits ▸ List.mem_cons_self ..)
      rintro rfl
      cases hdigit
    rw [hdigits, Json.readNumber?_of_ne hminus, ← hdigits, Json.readUnsigned?_toDigits hnat false, hvalue]
    rfl

/-- The text of the double 31.245270191439438 is read as the next double above it. -/
example : ¬ (float ⟨false, 8794761699453570, 1026, by decide, by decide, .inr (by decide)⟩).ReadsBack := by
  unfold ReadsBack
  decide +kernel

end JsonNumber

end GraphQLCheck
