/-
  GraphQLCheck.Proofs.Json.Quoted
  ───────────────────────────────
  Texts between quotes.

  Each character is written as itself or escaped, and read as its code.  The codes are put together again
  from the last to the first.  Characters are no surrogates, so no two codes are taken for one character.

  Main results:
    * `Json.readString?_escapeChar` — what is written for a character is read as its code
    * `Json.joinCodes?_toNat`       — the codes of characters are put together to these
    * `Json.readString?_quoted`     — a text between quotes is read back
-/
import GraphQLCheck.Json.Printer
import GraphQLCheck.Json.Reader

namespace GraphQLCheck.Json

/-! ## §1. Characters. -/

theorem readHex_hex4 : ∀ code < 0x20, Text.readHex (Text.hex4 Text.lowerHexDigit code) = some code := by
  decide

/-- A character that is not escaped is read as its code. -/
theorem readString?_of_ne {c : Char} (hquote : c ≠ '"') (hbackslash : c ≠ '\\') (hcontrol : ¬c.toNat < 0x20)
    (taken : List Nat) (rest : List Char) :
    readString? taken (c :: rest) = readString? (c.toNat :: taken) rest := by
  conv => lhs; unfold readString?
  split
  next heq => cases heq
  next heq =>
    injection heq with hc
    exact absurd hc hquote
  next heq =>
    injection heq with hc
    exact absurd hc hbackslash
  next heq =>
    injection heq with hc
    exact absurd hc hbackslash
  next heq =>
    cases heq
    have hplain : (decide (c.toNat < 0x20) || c == '\\') = false := by
      rw [decide_eq_false hcontrol, beq_eq_false_iff_ne.2 hbackslash]
      rfl
    rw [hplain]
    rfl

/-- What is written for a character is read as its code. -/
theorem readString?_escapeChar (c : Char) (taken : List Nat) (rest : List Char) :
    readString? taken (escapeChar c ++ rest) = readString? (c.toNat :: taken) rest := by
  unfold escapeChar
  -- first the characters with an escape of their own
  by_cases hquote : c = '"'
  · subst hquote
    rfl
  rw [if_neg hquote]
  by_cases hbackslash : c = '\\'
  · subst hbackslash
    rfl
  rw [if_neg hbackslash]
  by_cases hlineFeed : c = '\n'
  · subst hlineFeed
    rfl
  rw [if_neg hlineFeed]
  by_cases hreturn : c = '\r'
  · subst hreturn
    rfl
  rw [if_neg hreturn]
  by_cases htab : c = '\t'
  · subst htab
    rfl
  rw [if_neg htab]
  by_cases hbackspace : c.toNat = 0x08
  · rw [if_pos hbackspace, hbackspace]
    rfl
  rw [if_neg hbackspace]
  by_cases hformFeed : c.toNat = 0x0C
  · rw [if_pos hformFeed, hformFeed]
    rfl
  rw [if_neg hformFeed]
  by_cases hcontrol : c.toNat < 0x20
  · rw [if_pos hcontrol]
    show (Text.readHex (Text.hex4 Text.lowerHexDigit c.toNat)).bind
      (fun code => readString? (code :: taken) rest) = _
    rw [readHex_hex4 _ hcontrol]
    rfl
  · rw [if_neg hcontrol]
    exact readString?_of_ne hquote hbackslash hcontrol taken rest

/-! ## §2. Texts. -/

theorem charOfCode?_toNat (c : Char) : Text.charOfCode? c.toNat = some c := by
  have hvalid : c.toNat.isValidChar := c.valid
  unfold Text.charOfCode?
  rw [if_pos hvalid, Char.ofNat_toNat]

/-- The codes of characters are put together to these. -/
theorem joinCodes?_toNat (after cs : List Char) :
    joinCodes? after (cs.map Char.toNat) = some (cs.reverse ++ after) := by
  induction cs generalizing after with
  | nil => rfl
  | cons low cs ih =>
    cases cs with
    | nil =>
      show (Text.charOfCode? low.toNat).map (· :: after) = _
      rw [charOfCode?_toNat]
      rfl
    | cons high cs =>
      have hsurrogate : (decide (0xD800 ≤ high.toNat) && decide (high.toNat < 0xDC00) &&
          decide (0xDC00 ≤ low.toNat) && decide (low.toNat < 0xE000)) = false := by
        have hvalid : low.toNat < 0xD800 ∨ 0xDFFF < low.toNat ∧ low.toNat < 0x110000 := low.valid
        simp only [Bool.and_eq_false_iff, decide_eq_false_iff_not]
        omega
      rw [List.map_cons, List.map_cons, joinCodes?, hsurrogate, charOfCode?_toNat]
      show joinCodes? (low :: after) ((high :: cs).map Char.toNat) = _
      rw [ih, List.reverse_cons (a := low), List.append_assoc]
      rfl

section Escape

variable {escape : Char → List Char}
  (hescape : ∀ c taken rest, readString? taken (escape c ++ rest) = readString? (c.toNat :: taken) rest)
include hescape

theorem readString?_flatMap (cs : List Char) (taken : List Nat) (rest : List Char) :
    readString? taken (cs.flatMap escape ++ rest) = readString? ((cs.map Char.toNat).reverse ++ taken) rest := by
  induction cs generalizing taken with
  | nil => rfl
  | cons c cs ih =>
    rw [List.flatMap_cons, List.append_assoc, hescape, ih, List.map_cons, List.reverse_cons, List.append_assoc]
    rfl

/-- Where each character is read as its code, however it is escaped, a text between quotes is read back. -/
theorem readString?_escaped (s : String) (rest : List Char) :
    readString? [] (s.toList.flatMap escape ++ '"' :: rest) = some (some s, rest) := by
  rw [readString?_flatMap hescape, List.append_nil, ← List.map_reverse]
  show some ((joinCodes? [] (s.toList.reverse.map Char.toNat)).map String.ofList, rest) = _
  rw [joinCodes?_toNat, List.reverse_reverse, List.append_nil]
  show some (some (String.ofList s.toList), rest) = _
  rw [String.ofList_toList]

end Escape

/-- **A text between quotes is read back.** -/
theorem readString?_quoted (s : String) (rest : List Char) :
    readString? [] (s.toList.flatMap escapeChar ++ '"' :: rest) = some (some s, rest) :=
  readString?_escaped readString?_escapeChar s rest

end GraphQLCheck.Json
