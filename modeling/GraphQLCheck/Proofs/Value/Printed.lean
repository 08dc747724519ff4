/-
  GraphQLCheck.Proofs.Value.Printed
  ─────────────────────────────────
  The texts of literals are unambiguous.

  A text without brackets and quotes ends where a character stands that belongs to none: a comma, a colon, a
  closing bracket.  A string ends with its closing quote, as the quotes in it are escaped.  So wherever a literal
  stands, its text tells where it ends, and the items of a list and the fields of an object can be told apart one
  by one.

      Literal.isProper  — names are names, and doubles are finite
      Literal.isBare    — literals without brackets and quotes
      Literal.readBare  — the literal that a text without brackets and quotes is of

  Main results:
    * `Literal.readBare_render`                — a literal without brackets and quotes is read back from its text
    * `Literal.readString?_quote`              — and so is what a string holds
    * `Literal.eq_of_append`                   — whatever stands behind, the text of a literal tells the literal
    * `printed_literals_are_unambiguous`       — two literals have one text only if they are the same
-/
import GraphQLCheck.Language.Lexeme
import GraphQLCheck.Proofs.Json.Quoted
import GraphQLCheck.Proofs.Number.Printed
import GraphQLCheck.Proofs.Value.Induction

namespace GraphQLCheck

/-! ## §1. Proper literals. -/

/-- Whether a text is a name: a letter or an underscore, and behind it letters, digits and underscores. -/
def Text.isName (s : String) : Bool :=
  match s.toList with
  | [] => false
  | c :: rest => Scanner.startsName c && rest.all Scanner.continuesName

mutual
/-- Whether the names in a literal are names, that of an enum value is no keyword, and all doubles are finite. -/
def Literal.isProper : Literal → Bool
  | .null | .int _ | .string _ | .boolean _ => true
  | .float x => x.finite?.isSome
  | .enum name => Text.isName name && !(["true", "false", "null"].contains name)
  | .variable name => Text.isName name
  | .list items => itemsProper items
  | .object fields => fieldsProper fields
/-- Whether the items of a list are such literals. -/
def Literal.itemsProper : List Literal → Bool
  | [] => true
  | item :: items => item.isProper && itemsProper items
/-- Whether the fields of an object are such literals and have names. -/
def Literal.fieldsProper : List (String × Literal) → Bool
  | [] => true
  | (name, value) :: fields => Text.isName name && value.isProper && fieldsProper fields
end

namespace Literal

theorem isProper_list_iff {items : List Literal} :
    (Literal.list items).isProper = true ↔ ∀ item ∈ items, item.isProper = true := by
  show itemsProper items = true ↔ _
  induction items with
  | nil => simp [itemsProper]
  | cons item items ih => simp [itemsProper, ih]

theorem isProper_object_iff {fields : List (String × Literal)} :
    (Literal.object fields).isProper = true ↔
      ∀ field ∈ fields, Text.isName field.1 = true ∧ field.2.isProper = true := by
  show fieldsProper fields = true ↔ _
  induction fields with
  | nil => simp [fieldsProper]
  | cons field fields ih => simp [fieldsProper, ih]

end Literal

/-! ## §2. Literals without brackets and quotes. -/

namespace Text

/-- Whether a character can stand in the text of a literal without brackets and quotes. -/
def isBareChar (c : Char) : Bool := c.isAlphanum || c == '_' || c == '$' || c == '-' || c == '.'

theorem isBareChar_of_isDigit {c : Char} (h : c.isDigit = true) : isBareChar c = true := by
  simp [isBareChar, Char.isAlphanum, h]

theorem isBareChar_of_startsName {c : Char} (h : Scanner.startsName c = true) : isBareChar c = true := by
  simp only [Scanner.startsName, Bool.or_eq_true] at h
  rcases h with h | h
  · simp [isBareChar, Char.isAlphanum, h]
  · simp [isBareChar, h]

theorem isBareChar_of_continuesName {c : Char} (h : Scanner.continuesName c = true) : isBareChar c = true := by
  simp only [Scanner.continuesName, Bool.or_eq_true] at h
  rcases h with h | h
  · simp [isBareChar, h]
  · simp [isBareChar, h]

theorem startsName_of_isDigit {c : Char} (h : c.isDigit = true) : Scanner.startsName c = false := by
  -- all characters that begin a name come after the digits
  have habove : ∀ first : UInt32, '9'.val < first → ¬first ≤ c.val := fun first hfirst hc =>
    absurd (UInt32.le_trans hc (val_le_of_isDigit h)) (UInt32.not_le.2 hfirst)
  have hunderscore : c ≠ '_' := by
    rintro rfl
    exact absurd h (by decide)
  have hupper : c.isUpper = false := decide_eq_false fun hc => habove _ (by decide) hc.1
  have hlower : c.isLower = false := Bool.and_eq_false_iff.2 (.inl (decide_eq_false (habove _ (by decide))))
  have halpha : c.isAlpha = false := by
    show (c.isUpper || c.isLower) = false
    rw [hupper, hlower]
    rfl
  simp [Scanner.startsName, halpha, hunderscore]

/-- A name begins as names do, and consists of characters of names. -/
theorem exists_of_isName {s : String} (h : isName s = true) :
    ∃ c rest, s.toList = c :: rest ∧ Scanner.startsName c = true ∧ ∀ d ∈ rest, Scanner.continuesName d = true := by
  unfold isName at h
  split at h
  next => cases h
  next c rest hs =>
    rw [Bool.and_eq_true, List.all_eq_true] at h
    exact ⟨c, rest, hs, h.1, h.2⟩

theorem isBareChar_of_isName {s : String} (h : isName s = true) : ∀ c ∈ s.toList, isBareChar c = true := by
  obtain ⟨c, rest, hs, hc, hrest⟩ := exists_of_isName h
  rw [hs]
  exact List.forall_mem_cons.2
    ⟨isBareChar_of_startsName hc, fun d hd => isBareChar_of_continuesName (hrest d hd)⟩

end Text

namespace Literal

/-- The bracket or the quote that a literal begins with, if it has one. -/
def bracket? : Literal → Option Char
  | .string _ => some '"'
  | .list _ => some '['
  | .object _ => some '\x7b'
  | .null | .int _ | .float _ | .boolean _ | .enum _ | .variable _ => none

/-- Whether the text of a literal has no brackets and no quotes. -/
def isBare (literal : Literal) : Bool := literal.bracket?.isNone

/-- The literal that a text without brackets and quotes is of: its first character tells variables, names and
numbers apart, and a number with a point or an exponent is a double. -/
def readBare (text : List Char) : Literal :=
  match text with
  | [] => .null
  | c :: rest =>
    if c = '$' then .variable (String.ofList rest)
    else if Scanner.startsName c then
      let name := String.ofList text
      if name = "null" then .null
      else if name = "true" then .boolean true
      else if name = "false" then .boolean false
      else .enum name
    else if text.any fun c => c == '.' || c == 'e' then .float ((Double.ofText? text).getD .notANumber)
    else .int ((Text.readInt? text).getD 0)

/-- A number does not begin like a variable or a name. -/
theorem readBare_of_number {text rest : List Char} {c : Char} (htext : text = c :: rest)
    (hc : c.isDigit = true ∨ c = '-') :
    readBare text = if text.any fun c => c == '.' || c == 'e' then .float ((Double.ofText? text).getD .notANumber)
      else .int ((Text.readInt? text).getD 0) := by
  have hdollar : c ≠ '$' := by
    rintro rfl
    exact absurd hc (by decide)
  have hname : Scanner.startsName c = false := by
    rcases hc with hdigit | rfl
    · exact Text.startsName_of_isDigit hdigit
    · rfl
  subst htext
  unfold readBare
  dsimp only
  rw [if_neg hdollar, hname]
  rfl

/-- The text of an integer has neither a point nor an exponent. -/
theorem readBare_int (i : Int) : readBare (Literal.int i).render.toList = .int i := by
  have htext : (Literal.int i).render = Text.showInt i := rfl
  obtain ⟨c, rest, hcons, hfirst⟩ := Text.exists_cons_showInt i
  have hnone : ((Text.showInt i).toList.any fun c => c == '.' || c == 'e') = false := by
    rw [List.any_eq_false]
    intro d hd hmark
    rw [Bool.or_eq_true, beq_iff_eq, beq_iff_eq] at hmark
    have hdigit := Text.isDigit_or_of_mem_showInt d hd
    rcases hmark with rfl | rfl
    · exact absurd hdigit (by decide)
    · exact absurd hdigit (by decide)
  rw [htext, readBare_of_number hcons hfirst, hnone, Text.readInt?_showInt]
  rfl

/-- The text of a double has a point or an exponent. -/
theorem readBare_float (x : FiniteDouble) :
    readBare (Literal.float (.finite x)).render.toList = .float (.finite x) := by
  have htext : (Literal.float (.finite x)).render = literalFloat.renderFinite x := rfl
  obtain ⟨c, rest, hcons, hfirst⟩ := literalFloat.exists_cons_renderFinite x
  have hsome : ((literalFloat.renderFinite x).toList.any fun c => c == '.' || c == 'e') = true := by
    obtain ⟨d, hd, hmark⟩ := literalFloat.exists_mem_renderFinite x
    refine List.any_eq_true.2 ⟨d, hd, ?_⟩
    rcases hmark with rfl | rfl <;> rfl
  rw [htext, readBare_of_number hcons hfirst, hsome, FloatStyle.ofText?_renderFinite (.inl rfl) x]
  rfl

/-- A name of an enum value is no keyword. -/
theorem readBare_enum {name : String} (h : (Literal.enum name).isProper = true) :
    readBare (Literal.enum name).render.toList = .enum name := by
  have hproper : Text.isName name = true ∧ (["true", "false", "null"].contains name) = false := by
    simpa [isProper] using h
  obtain ⟨c, rest, hname, hc, _⟩ := Text.exists_of_isName hproper.1
  -- the keywords are read as null and the truth values, so they must be left out
  have hkeywords : name ≠ "null" ∧ name ≠ "true" ∧ name ≠ "false" := by
    have hnone := hproper.2
    simp only [List.contains_cons, List.contains_nil, Bool.or_false, Bool.or_eq_false_iff,
      beq_eq_false_iff_ne] at hnone
    exact ⟨hnone.2.2, hnone.1, hnone.2.1⟩
  have hdollar : c ≠ '$' := by
    rintro rfl
    exact absurd hc (by decide)
  show readBare name.toList = _
  have hofList : String.ofList (c :: rest) = name := by rw [← hname, String.ofList_toList]
  rw [hname]
  unfold readBare
  dsimp only
  rw [if_neg hdollar, if_pos hc, hofList, if_neg hkeywords.1, if_neg hkeywords.2.1, if_neg hkeywords.2.2]

theorem toList_render_variable (name : String) : (Literal.variable name).render.toList = '$' :: name.toList := by
  rw [render, String.toList_append]
  rfl

theorem readBare_variable (name : String) : readBare (Literal.variable name).render.toList = .variable name := by
  rw [toList_render_variable]
  show Literal.variable (String.ofList name.toList) = _
  rw [String.ofList_toList]

/-- **A literal without brackets and quotes is read back from its text.** -/
theorem readBare_render : ∀ {literal : Literal}, literal.isProper = true → literal.isBare = true →
    readBare literal.render.toList = literal
  | .null, _, _ => rfl
  | .int i, _, _ => readBare_int i
  | .float (.finite x), _, _ => readBare_float x
  | .boolean true, _, _ => rfl
  | .boolean false, _, _ => rfl
  | .enum _, hproper, _ => readBare_enum hproper
  | .variable name, _, _ => readBare_variable name

/-- The text of such a literal has no brackets and no quotes. -/
theorem isBareChar_of_mem_render : ∀ {literal : Literal}, literal.isProper = true → literal.isBare = true →
    ∀ c ∈ literal.render.toList, Text.isBareChar c = true
  | .null, _, _ => List.all_eq_true.1 (by decide)
  | .int i, _, _ => by
    intro c hc
    rcases Text.isDigit_or_of_mem_showInt c hc with hdigit | rfl
    · exact Text.isBareChar_of_isDigit hdigit
    · rfl
  | .float (.finite x), _, _ =>
    FloatStyle.forall_mem_renderFinite (fun c => Text.isBareChar c = true) rfl rfl rfl
      (List.forall_mem_nil _) (fun _ => Text.isBareChar_of_isDigit) x
  | .boolean true, _, _ => List.all_eq_true.1 (by decide)
  | .boolean false, _, _ => List.all_eq_true.1 (by decide)
  | .enum name, hproper, _ => by
    have hname : Text.isName name = true := (Bool.and_eq_true_iff.1 hproper).1
    exact Text.isBareChar_of_isName hname
  | .variable name, hproper, _ => by
    rw [toList_render_variable]
    exact List.forall_mem_cons.2 ⟨rfl, Text.isBareChar_of_isName hproper⟩

theorem exists_bareChar_of_isBare {literal : Literal} (hproper : literal.isProper = true)
    (hbare : literal.isBare = true) : ∃ c rest, literal.render.toList = c :: rest ∧ Text.isBareChar c = true := by
  have hne : literal.render.toList ≠ [] := by
    -- an empty text would be read as null, which does not have one
    intro hempty
    have hread := readBare_render hproper hbare
    rw [hempty] at hread
    cases hread
    exact absurd hempty (by decide)
  obtain ⟨c, rest, htext⟩ := List.exists_cons_of_ne_nil hne
  exact ⟨c, rest, htext, isBareChar_of_mem_render hproper hbare c (htext ▸ List.mem_cons_self ..)⟩

end Literal

/-! ## §3. Strings.  They are written as strings in JSON, but for some control characters. -/

namespace Literal

theorem readHex_hex4 : ∀ code < 0xA0, Text.readHex (Text.hex4 Text.upperHexDigit code) = some code := by
  decide +kernel

theorem toNat_lt_of_isControl {c : Char} (h : isControl c = true) : c.toNat < 0xA0 := by
  simp only [isControl, Bool.or_eq_true, Bool.and_eq_true, decide_eq_true_eq] at h
  omega

/-- A character is written as in JSON, except for control characters without an escape of their own. -/
theorem escapeChar_eq (c : Char) : escapeChar c = Json.escapeChar c ∨
    isControl c = true ∧ escapeChar c = '\\' :: 'u' :: Text.hex4 Text.upperHexDigit c.toNat := by
  by_cases hcontrol : isControl c = true
  · unfold escapeChar Json.escapeChar
    split_ifs
    all_goals first
      | exact .inl rfl
      | exact .inr ⟨hcontrol, rfl⟩
  · have hhigh : ¬c.toNat < 0x20 := fun hlow => hcontrol (by simp [isControl, hlow])
    unfold escapeChar Json.escapeChar
    rw [if_neg hcontrol, if_neg hhigh]
    exact .inl rfl

/-- What is written for a character is read as its code in JSON. -/
theorem readString?_escapeChar (c : Char) (taken : List Nat) (rest : List Char) :
    Json.readString? taken (escapeChar c ++ rest) = Json.readString? (c.toNat :: taken) rest := by
  rcases escapeChar_eq c with heq | ⟨hcontrol, heq⟩
  · rw [heq]
    exact Json.readString?_escapeChar c taken rest
  · rw [heq]
    show (Text.readHex (Text.hex4 Text.upperHexDigit c.toNat)).bind
      (fun code => Json.readString? (code :: taken) rest) = _
    rw [readHex_hex4 _ (toNat_lt_of_isControl hcontrol)]
    rfl

/-- **What a string literal holds is read back from its text.** -/
theorem readString?_quote (s : String) (rest : List Char) :
    Json.readString? [] (s.toList.flatMap escapeChar ++ '"' :: rest) = some (some s, rest) :=
  Json.readString?_escaped readString?_escapeChar s rest

end Literal

/-! ## §4. Parts between brackets. -/

namespace Text

/-- A text does not go on like one without brackets and quotes. -/
def EndsBare (text : List Char) : Prop := ∀ c ∈ text.head?, isBareChar c = false

theorem endsBare_cons {c : Char} (h : isBareChar c = false) (rest : List Char) : EndsBare (c :: rest) := by
  intro d hd
  cases hd
  exact h

theorem bracketed_append (opening closing : Char) (text rest : List Char) :
    opening :: (text ++ [closing]) ++ rest = opening :: (text ++ closing :: rest) := by
  rw [List.cons_append, List.append_assoc, List.singleton_append]

section Sequence

variable {α : Type} {text : α → List Char} {closing : Char}

/-- What stands behind the first of some parts: the others, each after a comma, and the closing bracket. -/
def behindFirst (text : α → List Char) (closing : Char) (rest : List Char) : List α → List Char
  | [] => closing :: rest
  | a :: l => ',' :: ' ' :: (text a ++ behindFirst text closing rest l)

theorem intercalate_append (a : α) (l : List α) (rest : List Char) :
    List.intercalate [',', ' '] ((a :: l).map text) ++ closing :: rest =
      text a ++ behindFirst text closing rest l := by
  induction l generalizing a with
  | nil =>
    rw [List.map_singleton, List.intercalate_singleton]
    rfl
  | cons b l ih =>
    rw [List.map_cons, List.map_cons, List.intercalate_cons_cons, List.append_assoc, List.append_assoc,
      ← List.map_cons, ih]
    rfl

variable (hclosing : closing ≠ ',' ∧ isBareChar closing = false)
include hclosing

theorem endsBare_behindFirst (rest : List Char) (l : List α) : EndsBare (behindFirst text closing rest l) := by
  cases l with
  | nil => exact endsBare_cons hclosing.2 rest
  | cons a l => exact endsBare_cons rfl _

variable {l l' : List α} {rest rest' : List Char}
  (hpart : ∀ a ∈ l, ∀ b ∈ l', ∀ behind behind', EndsBare behind → EndsBare behind' →
    text a ++ behind = text b ++ behind' → a = b ∧ behind = behind')
include hpart

theorem eq_of_behindFirst (h : behindFirst text closing rest l = behindFirst text closing rest' l') :
    l = l' ∧ rest = rest' := by
  induction l generalizing l' with
  | nil =>
    cases l' with
    | nil =>
      injection h with _ hrest
      exact ⟨rfl, hrest⟩
    | cons b l' =>
      injection h with hcomma _
      exact absurd hcomma hclosing.1
  | cons a l ih =>
    cases l' with
    | nil =>
      injection h with hcomma _
      exact absurd hcomma.symm hclosing.1
    | cons b l' =>
      injection h with _ h
      injection h with _ h
      obtain ⟨rfl, hbehind⟩ := hpart a (List.mem_cons_self ..) b (List.mem_cons_self ..) _ _
        (endsBare_behindFirst hclosing rest l) (endsBare_behindFirst hclosing rest' l') h
      obtain ⟨rfl, hrest⟩ := ih
        (fun a ha b hb => hpart a (List.mem_cons_of_mem _ ha) b (List.mem_cons_of_mem _ hb)) hbehind
      exact ⟨rfl, hrest⟩

/-- **Parts between brackets can be told apart**, if each of them can, whatever stands behind it, and none begins
with the closing bracket. -/
theorem eq_of_intercalate (hfirst : ∀ a ∈ l ++ l', ∃ c cs, text a = c :: cs ∧ c ≠ closing)
    (h : List.intercalate [',', ' '] (l.map text) ++ closing :: rest =
      List.intercalate [',', ' '] (l'.map text) ++ closing :: rest') : l = l' ∧ rest = rest' := by
  cases l with
  | nil =>
    cases l' with
    | nil =>
      injection h with _ hrest
      exact ⟨rfl, hrest⟩
    | cons b l' =>
      obtain ⟨c, cs, htext, hc⟩ := hfirst b (List.mem_cons_self ..)
      rw [intercalate_append, htext] at h
      injection h with hbracket _
      exact absurd hbracket.symm hc
  | cons a l =>
    cases l' with
    | nil =>
      obtain ⟨c, cs, htext, hc⟩ := hfirst a (List.mem_append_left _ (List.mem_cons_self ..))
      rw [intercalate_append, htext] at h
      injection h with hbracket _
      exact absurd hbracket hc
    | cons b l' =>
      -- with a comma before the first parts, they are like all others
      rw [intercalate_append, intercalate_append] at h
      exact eq_of_behindFirst hclosing hpart (congrArg (fun text => ',' :: ' ' :: text) h)

end Sequence

end Text

/-! ## §5. Texts tell literals. -/

namespace Literal

/-- The text of a field of an object. -/
def fieldText (field : String × Literal) : List Char :=
  field.1.toList ++ ':' :: ' ' :: field.2.render.toList

theorem toList_render_string (s : String) :
    (Literal.string s).render.toList = '"' :: (s.toList.flatMap escapeChar ++ ['"']) :=
  String.toList_ofList

theorem toList_render_list (items : List Literal) : (Literal.list items).render.toList =
    '[' :: (List.intercalate [',', ' '] (items.map fun item => item.render.toList) ++ [']']) := by
  have hitems : renderItems items = items.map render := by
    induction items with
    | nil => rfl
    | cons item items ih => rw [renderItems, ih, List.map_cons]
  rw [render, hitems]
  simp [Function.comp_def]

theorem toList_render_object (fields : List (String × Literal)) : (Literal.object fields).render.toList =
    '\x7b' :: (List.intercalate [',', ' '] (fields.map fieldText) ++ ['\x7d']) := by
  have hfields : renderFields fields = fields.map fun field => field.1 ++ ": " ++ field.2.render := by
    induction fields with
    | nil => rfl
    | cons field fields ih =>
      obtain ⟨name, value⟩ := field
      rw [renderFields, ih, List.map_cons]
  have htext : ∀ field : String × Literal, (field.1 ++ ": " ++ field.2.render).toList = fieldText field := by
    intro field
    simp [fieldText]
  rw [render, hfields, String.toList_append, String.toList_append, String.toList_intercalate, List.map_map]
  simp [Function.comp_def, htext]

/-- **The first character of the text of a literal tells whether it begins with a bracket, and with which.** -/
theorem exists_cons_render {literal : Literal} (h : literal.isProper = true) : ∃ c rest,
    literal.render.toList = c :: rest ∧ literal.bracket? = if Text.isBareChar c then none else some c := by
  by_cases hbare : literal.isBare = true
  · obtain ⟨c, rest, htext, hc⟩ := exists_bareChar_of_isBare h hbare
    refine ⟨c, rest, htext, ?_⟩
    rw [if_pos hc]
    exact Option.isNone_iff_eq_none.1 hbare
  · cases literal with
    | string s => exact ⟨'"', _, toList_render_string s, rfl⟩
    | list items => exact ⟨'[', _, toList_render_list items, rfl⟩
    | object fields => exact ⟨'\x7b', _, toList_render_object fields, rfl⟩
    | _ => exact absurd rfl hbare

theorem eq_string_of_bracket? {literal : Literal} (h : literal.bracket? = some '"') : ∃ s, literal = .string s := by
  cases literal with
  | string s => exact ⟨s, rfl⟩
  | _ => simp [bracket?] at h

theorem eq_list_of_bracket? {literal : Literal} (h : literal.bracket? = some '[') : ∃ items, literal = .list items := by
  cases literal with
  | list items => exact ⟨items, rfl⟩
  | _ => simp [bracket?] at h

theorem eq_object_of_bracket? {literal : Literal} (h : literal.bracket? = some '\x7b') :
    ∃ fields, literal = .object fields := by
  cases literal with
  | object fields => exact ⟨fields, rfl⟩
  | _ => simp [bracket?] at h

/-- What begins with the same character begins with the same bracket. -/
theorem bracket?_eq_of_append {v w : Literal} (hv : v.isProper = true) (hw : w.isProper = true)
    {rest rest' : List Char} (h : v.render.toList ++ rest = w.render.toList ++ rest') :
    v.bracket? = w.bracket? := by
  obtain ⟨c, cs, hvtext, hvbracket⟩ := exists_cons_render hv
  obtain ⟨d, ds, hwtext, hwbracket⟩ := exists_cons_render hw
  rw [hvtext, hwtext] at h
  injection h with hcd _
  rw [hvbracket, hwbracket, hcd]

/-- A text without brackets and quotes ends where another character stands. -/
theorem eq_of_append_bare {v w : Literal} (hv : v.isProper = true) (hw : w.isProper = true)
    (hbare : v.isBare = true) {rest rest' : List Char} (hrest : Text.EndsBare rest) (hrest' : Text.EndsBare rest')
    (h : v.render.toList ++ rest = w.render.toList ++ rest') : v = w ∧ rest = rest' := by
  have hbare' : w.isBare = true := by
    unfold isBare
    rw [← bracket?_eq_of_append hv hw h]
    exact hbare
  obtain ⟨htext, hbehind⟩ := Text.eq_of_runs (isBareChar_of_mem_render hv hbare)
    (isBareChar_of_mem_render hw hbare') hrest hrest' h
  refine ⟨?_, hbehind⟩
  rw [← readBare_render hv hbare, htext, readBare_render hw hbare']

/-- A string ends with its closing quote. -/
theorem eq_of_append_string {s : String} {w : Literal} (hw : w.isProper = true) {rest rest' : List Char}
    (h : (Literal.string s).render.toList ++ rest = w.render.toList ++ rest') :
    Literal.string s = w ∧ rest = rest' := by
  obtain ⟨t, rfl⟩ := eq_string_of_bracket? (bracket?_eq_of_append rfl hw h).symm
  -- both sides are read as a string: what it holds and what stands behind it are then the same
  rw [toList_render_string, toList_render_string, Text.bracketed_append, Text.bracketed_append] at h
  injection h with _ h
  have hread := readString?_quote s rest
  rw [h, readString?_quote] at hread
  cases hread
  exact ⟨rfl, rfl⟩

/-- Lists have the same items, if the texts of the items tell these. -/
theorem eq_of_append_list {items items' : List Literal}
    (hitem : ∀ a ∈ items, ∀ b ∈ items', ∀ behind behind', Text.EndsBare behind → Text.EndsBare behind' →
      a.render.toList ++ behind = b.render.toList ++ behind' → a = b ∧ behind = behind')
    (hproper : ∀ item ∈ items, item.isProper = true) (hproper' : ∀ item ∈ items', item.isProper = true)
    {rest rest' : List Char}
    (h : (Literal.list items).render.toList ++ rest = (Literal.list items').render.toList ++ rest') :
    items = items' ∧ rest = rest' := by
  have hfirst : ∀ a ∈ items ++ items', ∃ c cs, a.render.toList = c :: cs ∧ c ≠ ']' := by
    intro a ha
    obtain ⟨c, cs, hcons, hbracket⟩ := exists_cons_render ((List.mem_append.1 ha).elim (hproper a) (hproper' a))
    refine ⟨c, cs, hcons, ?_⟩
    rintro rfl
    cases a <;> simp [bracket?, Text.isBareChar] at hbracket
  rw [toList_render_list, toList_render_list, Text.bracketed_append, Text.bracketed_append] at h
  injection h with _ h
  exact Text.eq_of_intercalate ⟨by decide, rfl⟩ hitem hfirst h

/-- Objects have the same fields, if the texts of the values tell these. -/
theorem eq_of_append_object {fields fields' : List (String × Literal)}
    (hvalue : ∀ a ∈ fields, ∀ b ∈ fields', ∀ behind behind', Text.EndsBare behind → Text.EndsBare behind' →
      a.2.render.toList ++ behind = b.2.render.toList ++ behind' → a.2 = b.2 ∧ behind = behind')
    (hname : ∀ field ∈ fields, Text.isName field.1 = true) (hname' : ∀ field ∈ fields', Text.isName field.1 = true)
    {rest rest' : List Char}
    (h : (Literal.object fields).render.toList ++ rest = (Literal.object fields').render.toList ++ rest') :
    fields = fields' ∧ rest = rest' := by
  have hfield : ∀ a ∈ fields, ∀ b ∈ fields', ∀ behind behind', Text.EndsBare behind → Text.EndsBare behind' →
      fieldText a ++ behind = fieldText b ++ behind' → a = b ∧ behind = behind' := by
    intro a ha b hb behind behind' hend hend' heq
    unfold fieldText at heq
    rw [List.append_assoc, List.append_assoc] at heq
    -- a name ends at the colon
    obtain ⟨hnames, heq⟩ := Text.eq_of_runs (Text.isBareChar_of_isName (hname a ha))
      (Text.isBareChar_of_isName (hname' b hb)) (Text.endsBare_cons rfl _) (Text.endsBare_cons rfl _) heq
    injection heq with _ heq
    injection heq with _ heq
    obtain ⟨hvalues, hbehind⟩ := hvalue a ha b hb behind behind' hend hend' heq
    exact ⟨Prod.ext (String.toList_inj.1 hnames) hvalues, hbehind⟩
  have hfirst : ∀ a ∈ fields ++ fields', ∃ c cs, fieldText a = c :: cs ∧ c ≠ '\x7d' := by
    intro a ha
    obtain ⟨c, cs, hcons, hc, _⟩ := Text.exists_of_isName ((List.mem_append.1 ha).elim (hname a) (hname' a))
    refine ⟨c, cs ++ ':' :: ' ' :: a.2.render.toList, ?_, ?_⟩
    · unfold fieldText
      rw [hcons]
      rfl
    · rintro rfl
      exact absurd hc (by decide)
  rw [toList_render_object, toList_render_object, Text.bracketed_append, Text.bracketed_append] at h
  injection h with _ h
  exact Text.eq_of_intercalate ⟨by decide, rfl⟩ hfield hfirst h

/-- **The text of a literal tells the literal**, whatever stands behind it that does not go on like a text
without brackets and quotes. -/
theorem eq_of_append {v w : Literal} (hv : v.isProper = true) (hw : w.isProper = true) {rest rest' : List Char}
    (hrest : Text.EndsBare rest) (hrest' : Text.EndsBare rest')
    (h : v.render.toList ++ rest = w.render.toList ++ rest') : v = w ∧ rest = rest' := by
  -- on the first literal: the second one begins with the same bracket, and so is of the same kind
  induction v generalizing w rest rest' with
  | null => exact eq_of_append_bare hv hw rfl hrest hrest' h
  | var name => exact eq_of_append_bare hv hw rfl hrest hrest' h
  | plain literal hplain =>
    cases literal with
    | string s => exact eq_of_append_string hw h
    | int i => exact eq_of_append_bare hv hw rfl hrest hrest' h
    | float x => exact eq_of_append_bare hv hw rfl hrest hrest' h
    | boolean b => exact eq_of_append_bare hv hw rfl hrest hrest' h
    | enum name => exact eq_of_append_bare hv hw rfl hrest hrest' h
    | _ => cases hplain
  | list items ih =>
    obtain ⟨items', rfl⟩ := eq_list_of_bracket? (bracket?_eq_of_append hv hw h).symm
    rw [isProper_list_iff] at hv hw
    obtain ⟨rfl, hbehind⟩ := eq_of_append_list (fun a ha b hb _ _ hend hend' heq =>
      ih a ha (hv a ha) (hw b hb) hend hend' heq) hv hw h
    exact ⟨rfl, hbehind⟩
  | object fields ih =>
    obtain ⟨fields', rfl⟩ := eq_object_of_bracket? (bracket?_eq_of_append hv hw h).symm
    rw [isProper_object_iff] at hv hw
    obtain ⟨rfl, hbehind⟩ := eq_of_append_object (fun a ha b hb _ _ hend hend' heq =>
      ih a ha (hv a ha).2 (hw b hb).2 hend hend' heq) (fun a ha => (hv a ha).1) (fun b hb => (hw b hb).1) h
    exact ⟨rfl, hbehind⟩

end Literal

/-- **Printed literals are unambiguous.**  Of literals with proper names and finite doubles, two have the same text
only if they are the same: the same items and fields in the same order, the same characters in strings, and
integers where there are integers. -/
theorem printed_literals_are_unambiguous {v w : Literal} (hv : v.isProper = true) (hw : w.isProper = true) :
    v.render = w.render ↔ v = w := by
  constructor
  · intro h
    have hend : Text.EndsBare [] := fun c hc => by cases hc
    exact (Literal.eq_of_append hv hw hend hend (by rw [h])).1
  · rintro rfl
    rfl

/-- A string that holds quotes and a comma does not read as two strings. -/
theorem quoted_comma_separates_no_items :
    (Literal.list [.string "a\", \"b", .enum "RED"]).isProper = true ∧
      (Literal.list [.string "a", .string "b", .enum "RED"]).isProper = true ∧
      (Literal.list [.string "a\", \"b", .enum "RED"]).render ≠
        (Literal.list [.string "a", .string "b", .enum "RED"]).render := by
  have hone : (Literal.list [.string "a\", \"b", .enum "RED"]).isProper = true := by decide
  have htwo : (Literal.list [.string "a", .string "b", .enum "RED"]).isProper = true := by decide
  refine ⟨hone, htwo, fun htext => ?_⟩
  have heq := (printed_literals_are_unambiguous hone htwo).1 htext
  simp at heq

end GraphQLCheck
