/-
  GraphQLCheck.Proofs.Number.Numeral
  ──────────────────────────────────
  Texts of digits, and what they are read as.

      Text.Numeral — the texts that are integers in decimal notation, and the integers that they are

  Main results:
    * `Text.takeDigits_of_digits`  — a run of digits is taken up to where it ends
    * `Text.readInt?_eq_some_iff`  — what is read as an integer is an integer in decimal notation
    * `Text.readInt?_showInt`      — the text of an integer is read back
-/
import GraphQLCheck.Text.Ascii
import Mathlib.Data.List.TakeDrop
import Mathlib.Data.List.TakeWhile

namespace GraphQLCheck.Text

/-! ## §1. Runs. -/

/-- A run of characters ends where one stands that does not belong to it. -/
theorem span_append {belongs : Char → Bool} {run rest : List Char} (hrun : ∀ c ∈ run, belongs c = true)
    (hrest : ∀ c ∈ rest.head?, belongs c = false) : (run ++ rest).span belongs = (run, rest) := by
  rw [List.span_eq_takeWhile_dropWhile, List.takeWhile_append_of_pos hrun, List.dropWhile_append_of_pos hrun]
  cases rest with
  | nil => rw [List.takeWhile_nil, List.append_nil, List.dropWhile_nil]
  | cons c rest =>
    have hc : belongs c = false := hrest c rfl
    rw [List.takeWhile_cons, List.dropWhile_cons, hc]
    simp

/-- Of two texts that begin with a run, the runs are the same if the texts are. -/
theorem eq_of_runs {belongs : Char → Bool} {run run' rest rest' : List Char} (hrun : ∀ c ∈ run, belongs c = true)
    (hrun' : ∀ c ∈ run', belongs c = true) (hrest : ∀ c ∈ rest.head?, belongs c = false)
    (hrest' : ∀ c ∈ rest'.head?, belongs c = false) (h : run ++ rest = run' ++ rest') :
    run = run' ∧ rest = rest' := by
  have hspan := span_append hrun hrest
  rw [h, span_append hrun' hrest'] at hspan
  exact Prod.mk.inj hspan.symm

/-- A run of digits is taken up to where it ends. -/
theorem takeDigits_of_digits {digits rest : List Char} (hdigits : ∀ c ∈ digits, c.isDigit = true)
    (hrest : ∀ c ∈ rest.head?, c.isDigit = false) : takeDigits (digits ++ rest) = (digits, rest) :=
  span_append hdigits hrest

theorem isDigit_of_mem_toDigits {n : Nat} {c : Char} (h : c ∈ Nat.toDigits 10 n) : c.isDigit = true :=
  Nat.isDigit_of_mem_toDigits (by decide) (by decide) h

theorem val_le_of_isDigit {c : Char} (h : c.isDigit = true) : c.val ≤ '9'.val := by
  unfold Char.isDigit at h
  rw [Bool.and_eq_true, decide_eq_true_eq, decide_eq_true_eq] at h
  exact h.2

/-- Zeros before the digits do not matter. -/
theorem ofDigitChars_zeros (count : Nat) (digits : List Char) :
    Nat.ofDigitChars 10 (List.replicate count '0' ++ digits) 0 = Nat.ofDigitChars 10 digits 0 := by
  rw [Nat.ofDigitChars_append, Nat.ofDigitChars_replicate_zero, Nat.mul_zero]

/-! ## §2. Integers. -/

/-- The integers in decimal notation: an optional sign, and at least one digit. -/
inductive Numeral : List Char → Int → Prop where
  | plain {digits : List Char} : digits ≠ [] → (∀ c ∈ digits, c.isDigit = true) →
      Numeral digits (Nat.ofDigitChars 10 digits 0)
  | plus {digits : List Char} : digits ≠ [] → (∀ c ∈ digits, c.isDigit = true) →
      Numeral ('+' :: digits) (Nat.ofDigitChars 10 digits 0)
  | minus {digits : List Char} : digits ≠ [] → (∀ c ∈ digits, c.isDigit = true) →
      Numeral ('-' :: digits) (-(Nat.ofDigitChars 10 digits 0 : Int))

theorem readNat?_eq_some_iff {digits : List Char} {n : Nat} :
    readInt?.readNat? digits = some n ↔
      (digits ≠ [] ∧ ∀ c ∈ digits, c.isDigit = true) ∧ n = Nat.ofDigitChars 10 digits 0 := by
  unfold readInt?.readNat?
  rw [Option.ite_none_left_eq_some, Option.some_inj, Bool.or_eq_true, not_or, Bool.not_eq_true',
    Bool.not_eq_false, List.all_eq_true, List.isEmpty_iff, @eq_comm _ (natOfDigits digits)]
  rfl

theorem readInt?_minus (digits : List Char) :
    readInt? ('-' :: digits) = (readInt?.readNat? digits).map fun n : Nat => -(n : Int) := by
  show Option.map _ (Option.bind (readInt?.readNat? digits) _) = _
  cases readInt?.readNat? digits <;> rfl

/-- **What is read as an integer is an integer in decimal notation.** -/
theorem readInt?_eq_some_iff {cs : List Char} {i : Int} : readInt? cs = some i ↔ Numeral cs i := by
  constructor
  · intro h
    by_cases hminus : ∃ digits, cs = '-' :: digits
    · obtain ⟨digits, rfl⟩ := hminus
      rw [readInt?_minus] at h
      obtain ⟨n, hn, rfl⟩ := Option.map_eq_some_iff.1 h
      obtain ⟨⟨hne, hdigits⟩, rfl⟩ := readNat?_eq_some_iff.1 hn
      exact .minus hne hdigits
    · unfold readInt? at h
      split at h
      next digits => exact absurd ⟨digits, rfl⟩ hminus
      next digits =>
        obtain ⟨n, hn, rfl⟩ := Option.map_eq_some_iff.1 h
        obtain ⟨⟨hne, hdigits⟩, rfl⟩ := readNat?_eq_some_iff.1 hn
        exact .plus hne hdigits
      next =>
        obtain ⟨n, hn, rfl⟩ := Option.map_eq_some_iff.1 h
        obtain ⟨⟨hne, hdigits⟩, rfl⟩ := readNat?_eq_some_iff.1 hn
        exact .plain hne hdigits
  · rintro (⟨hne, hdigits⟩ | ⟨hne, hdigits⟩ | ⟨hne, hdigits⟩)
    · -- a digit is no sign
      unfold readInt?
      split
      next => exact absurd (hdigits '-' (List.mem_cons_self ..)) (by decide)
      next => exact absurd (hdigits '+' (List.mem_cons_self ..)) (by decide)
      next =>
        rw [readNat?_eq_some_iff.2 ⟨⟨hne, hdigits⟩, rfl⟩]
        rfl
    · show (readInt?.readNat? _).map _ = _
      rw [readNat?_eq_some_iff.2 ⟨⟨hne, hdigits⟩, rfl⟩]
      rfl
    · rw [readInt?_minus, readNat?_eq_some_iff.2 ⟨⟨hne, hdigits⟩, rfl⟩]
      rfl

theorem numeral_toDigits (n : Nat) : Numeral (Nat.toDigits 10 n) n := by
  have hplain : Numeral (Nat.toDigits 10 n) _ := .plain Nat.toDigits_ne_nil fun _ => isDigit_of_mem_toDigits
  rwa [Nat.ofDigitChars_ten_toDigits] at hplain

theorem numeral_plus_toDigits (n : Nat) : Numeral ('+' :: Nat.toDigits 10 n) n := by
  have hplus : Numeral ('+' :: Nat.toDigits 10 n) _ := .plus Nat.toDigits_ne_nil fun _ => isDigit_of_mem_toDigits
  rwa [Nat.ofDigitChars_ten_toDigits] at hplus

theorem numeral_minus_toDigits (n : Nat) : Numeral ('-' :: Nat.toDigits 10 n) (-n : Int) := by
  have hminus : Numeral ('-' :: Nat.toDigits 10 n) _ := .minus Nat.toDigits_ne_nil fun _ => isDigit_of_mem_toDigits
  rwa [Nat.ofDigitChars_ten_toDigits] at hminus

/-- The text of an integer consists of digits, behind a minus sign or not. -/
theorem isDigit_or_of_mem_showInt {i : Int} : ∀ c ∈ (showInt i).toList, c.isDigit = true ∨ c = '-' := by
  rw [showInt, String.toList_ofList]
  refine List.forall_mem_append.2 ⟨?_, fun c hc => .inl (isDigit_of_mem_toDigits hc)⟩
  split
  · exact List.forall_mem_singleton.2 (.inr rfl)
  · exact List.forall_mem_nil _

theorem exists_cons_showInt (i : Int) :
    ∃ c rest, (showInt i).toList = c :: rest ∧ (c.isDigit = true ∨ c = '-') := by
  have hne : (showInt i).toList ≠ [] := by
    rw [showInt, String.toList_ofList]
    exact List.append_ne_nil_of_right_ne_nil _ Nat.toDigits_ne_nil
  obtain ⟨c, rest, htext⟩ := List.exists_cons_of_ne_nil hne
  exact ⟨c, rest, htext, isDigit_or_of_mem_showInt c (htext ▸ List.mem_cons_self ..)⟩

/-- **The text of an integer is read back.** -/
theorem readInt?_showInt (i : Int) : readInt? (showInt i).toList = some i := by
  rw [readInt?_eq_some_iff, showInt, String.toList_ofList]
  split
  next hneg =>
    have hi : i = -(i.natAbs : Int) := by omega
    rw [hi, Int.natAbs_neg, Int.natAbs_natCast]
    exact numeral_minus_toDigits i.natAbs
  next hneg =>
    have hi : i = i.natAbs := by omega
    rw [hi, Int.natAbs_natCast]
    exact numeral_toDigits i.natAbs

end GraphQLCheck.Text
