/-
  GraphQLCheck.Proofs.Json.ReadsBack
  ──────────────────────────────────
  JSON text that is read back.

  A value is written without blanks, and what is written begins with a character that begins no other part.
  So each item and each entry is read up to the comma or the bracket behind it, and the array or object is
  read back.  Two things can keep a text from being read back: a double may be read as a neighbour, and an
  array or object may be nested too deeply.

  Main results:
    * `Json.readSequence_intercalate` — parts between brackets are read back
    * `Json.reads_render`             — the text of a value is read back, whatever stands behind it
    * `Json.readWritten?_render`      — a value is read back from its text
-/
import GraphQLCheck.Proofs.Json.Number
import GraphQLCheck.Proofs.Json.Quoted
import GraphQLCheck.Proofs.Json.Written
import GraphQLCheck.Proofs.Value.Nesting

namespace GraphQLCheck.Json

/-! ## §1. Sequences. -/

/-- Whether a text begins like a value or an entry: not with a blank, nor with a closing bracket. -/
def startsPart : List Char → Bool
  | [] => false
  | c :: _ => !(c == ' ' || c == '\n' || c == '\t' || c == '\r') && c != ']' && c != '\x7d'

theorem skipBlanks_of_startsPart {cs : List Char} (h : startsPart cs = true) : skipBlanks cs = cs := by
  cases cs with
  | nil => cases h
  | cons c cs =>
    simp only [startsPart, Bool.and_eq_true, Bool.not_eq_true'] at h
    unfold skipBlanks
    rw [List.dropWhile_cons, h.1.1]
    rfl

theorem startsPart_append {cs : List Char} (h : startsPart cs = true) (rest : List Char) :
    startsPart (cs ++ rest) = true := by
  cases cs with
  | nil => cases h
  | cons c cs => exact h

/-- A part takes a text for a result, whatever stands behind the text. -/
def Reads {α : Type} (part : Part α) (text : List Char) (result : α) : Prop :=
  ∀ rest, endsNumber rest = true → part (text ++ rest) = some (result, rest)

section Sequence

variable {α β : Type} {closing : Char} {item : Part β} {text : α → List Char} {result : α → β} {l : List α}

/-- Parts that are separated by commas are read back one by one. -/
theorem readRest_intercalate (hclosing : closing = ']' ∨ closing = '\x7d') (hne : l ≠ [])
    (hstart : ∀ a ∈ l, startsPart (text a) = true)
    (hitem : ∀ a ∈ l, Reads item (text a) (result a))
    {count : Nat} (hcount : l.length ≤ count) (rest : List Char) :
    readRest closing item count (List.intercalate [','] (l.map text) ++ closing :: rest) =
      some (l.map result, rest) := by
  induction l generalizing count with
  | nil => exact absurd rfl hne
  | cons a l ih =>
    cases count with
    | zero => exact absurd hcount (Nat.not_succ_le_zero _)
    | succ count =>
      have hskip : ∀ after, skipBlanks (text a ++ after) = text a ++ after := fun after =>
        skipBlanks_of_startsPart (startsPart_append (hstart a (List.mem_cons_self ..)) after)
      have hfirst := hitem a (List.mem_cons_self ..)
      cases l with
      | nil =>
        -- behind the last item stands the closing bracket, behind the others a comma: both end a number
        have hend : endsNumber (closing :: rest) = true := by
          rcases hclosing with rfl | rfl <;> rfl
        show readRest closing item (count + 1) (List.intercalate [','] [text a] ++ closing :: rest) = _
        rw [List.intercalate_singleton, readRest, hskip, hfirst _ hend]
        rcases hclosing with rfl | rfl <;> rfl
      | cons b l =>
        have hrest := ih (List.cons_ne_nil b l) (fun other hother => hstart other (List.mem_cons_of_mem _ hother))
          (fun other hother => hitem other (List.mem_cons_of_mem _ hother)) (Nat.le_of_succ_le_succ hcount)
        show readRest closing item (count + 1)
          (List.intercalate [','] (text a :: text b :: l.map text) ++ closing :: rest) = _
        rw [List.intercalate_cons_cons, List.append_assoc, List.append_assoc, readRest, hskip, hfirst _ rfl]
        show (readRest closing item count
          (List.intercalate [','] ((b :: l).map text) ++ closing :: rest)).bind _ = _
        rw [hrest]
        rfl

theorem length_le_length_intercalate {texts : List (List Char)} (h : ∀ text ∈ texts, text ≠ []) :
    texts.length ≤ (List.intercalate [','] texts).length := by
  induction texts with
  | nil => exact Nat.le_refl 0
  | cons text texts ih =>
    have hpos : 0 < text.length := List.length_pos_iff.2 (h text (List.mem_cons_self ..))
    have hrest := ih fun other hother => h other (List.mem_cons_of_mem _ hother)
    by_cases hnil : texts = []
    · subst hnil
      rw [List.intercalate_singleton]
      exact hpos
    · rw [List.intercalate_cons_of_ne_nil hnil, List.length_append, List.length_append, List.length_cons]
      omega

theorem startsPart_intercalate (hne : l ≠ []) (hstart : ∀ a ∈ l, startsPart (text a) = true) :
    startsPart (List.intercalate [','] (l.map text)) = true := by
  obtain ⟨a, l, rfl⟩ := List.exists_cons_of_ne_nil hne
  have hfirst := hstart a (List.mem_cons_self ..)
  cases l with
  | nil =>
    show startsPart (List.intercalate [','] [text a]) = true
    rw [List.intercalate_singleton]
    exact hfirst
  | cons b l =>
    show startsPart (List.intercalate [','] (text a :: text b :: l.map text)) = true
    rw [List.intercalate_cons_cons, List.append_assoc]
    exact startsPart_append hfirst _

/-- What begins like a part is not the closing bracket, so there is a first part. -/
theorem readSequence_of_startsPart (hclosing : closing = ']' ∨ closing = '\x7d') {cs : List Char}
    (h : startsPart cs = true) : readSequence closing item cs = readRest closing item cs.length cs := by
  unfold readSequence
  rw [skipBlanks_of_startsPart h]
  cases cs with
  | nil => cases h
  | cons c cs =>
    have hc : (c == closing) = false := by
      simp only [startsPart, Bool.and_eq_true, bne_iff_ne] at h
      rcases hclosing with rfl | rfl
      · exact beq_eq_false_iff_ne.2 h.1.2
      · exact beq_eq_false_iff_ne.2 h.2
    show (if c == closing then _ else _) = _
    rw [hc]
    rfl

/-- **Parts between brackets are read back.** -/
theorem readSequence_intercalate (hclosing : closing = ']' ∨ closing = '\x7d')
    (hstart : ∀ a ∈ l, startsPart (text a) = true)
    (hitem : ∀ a ∈ l, Reads item (text a) (result a))
    (rest : List Char) :
    readSequence closing item (List.intercalate [','] (l.map text) ++ closing :: rest) =
      some (l.map result, rest) := by
  by_cases hnil : l = []
  · subst hnil
    rcases hclosing with rfl | rfl <;> rfl
  · have htexts : ∀ part ∈ l.map text, part ≠ [] := by
      intro part hpart hempty
      obtain ⟨a, ha, rfl⟩ := List.mem_map.1 hpart
      have hfirst := hstart a ha
      rw [hempty] at hfirst
      cases hfirst
    -- the parts are counted by the characters left, of which each part takes one
    have hcount : l.length ≤ (List.intercalate [','] (l.map text) ++ closing :: rest).length := by
      have hle := length_le_length_intercalate htexts
      rw [List.length_map] at hle
      rw [List.length_append]
      omega
    rw [readSequence_of_startsPart hclosing (startsPart_append (startsPart_intercalate hnil hstart) _)]
    exact readRest_intercalate hclosing hnil hstart hitem hcount rest

end Sequence

/-! ## §2. The text of a value. -/

/-- The text of an entry. -/
def entryText (entry : String × Json) : List Char :=
  '"' :: entry.1.toList.flatMap escapeChar ++ '"' :: ':' :: entry.2.render.toList

theorem toList_render_array (items : List Json) :
    (Json.array items).render.toList =
      '[' :: List.intercalate [','] (items.map fun item => item.render.toList) ++ [']'] := by
  have hitems : renderItems items = items.map render := by
    induction items with
    | nil => rfl
    | cons item items ih => rw [renderItems, ih, List.map_cons]
  rw [render, hitems]
  simp [Function.comp_def]

theorem toList_render_object (entries : List (String × Json)) :
    (Json.object entries).render.toList =
      '\x7b' :: List.intercalate [','] (entries.map entryText) ++ ['\x7d'] := by
  have hentries : renderEntries entries =
      entries.map fun entry => quote entry.1 ++ ":" ++ entry.2.render := by
    induction entries with
    | nil => rfl
    | cons entry entries ih =>
      obtain ⟨key, value⟩ := entry
      rw [renderEntries, ih, List.map_cons]
  have htext : ∀ entry : String × Json,
      (quote entry.1 ++ ":" ++ entry.2.render).toList = entryText entry := by
    intro entry
    simp [quote, entryText]
  rw [render, hentries, String.toList_append, String.toList_append, String.toList_intercalate, List.map_map]
  simp [Function.comp_def, htext]

/-- Whether the numbers in a value are read back from their texts. -/
structure NumbersReadBack (value : Json) : Prop where
  sized : value.isSized = true
  doubles : ∀ x ∈ value.doubles, (JsonNumber.float x).ReadsBack

namespace NumbersReadBack

theorem number {n : JsonNumber} (h : (Json.number n).NumbersReadBack) : n.ReadsBack := by
  cases n with
  | integer i => exact JsonNumber.readsBack_integer h.sized
  | float x => exact h.doubles x (List.mem_singleton.2 rfl)

theorem item {items : List Json} (h : (Json.array items).NumbersReadBack) {item : Json} (hitem : item ∈ items) :
    item.NumbersReadBack where
  sized := isSized_array_iff.1 h.sized item hitem
  doubles x hx := h.doubles x (mem_doubles_array.2 ⟨item, hitem, hx⟩)

theorem entry {entries : List (String × Json)} (h : (Json.object entries).NumbersReadBack)
    {entry : String × Json} (hentry : entry ∈ entries) : entry.2.NumbersReadBack where
  sized := isSized_object_iff.1 h.sized entry hentry
  doubles x hx := h.doubles x (mem_doubles_object.2 ⟨entry, hentry, hx⟩)

end NumbersReadBack

/-- A number begins like a part. -/
theorem startsPart_of_readNumber? {cs after : List Char} {n : Option JsonNumber}
    (h : readNumber? cs = some (n, after)) : startsPart cs = true := by
  obtain ⟨c, rest, rfl, rfl | hdigit⟩ := exists_of_readNumber? h
  · rfl
  · have hne : ∀ d : Char, d.isDigit = false → c ≠ d := by
      rintro d hd rfl
      rw [hd] at hdigit
      cases hdigit
    simp [startsPart, hne ' ' rfl, hne '\n' rfl, hne '\t' rfl, hne '\r' rfl, hne ']' rfl, hne '\x7d' rfl]

/-- The text of a value begins like a part. -/
theorem startsPart_render {value : Json} (h : value.NumbersReadBack) :
    startsPart value.render.toList = true := by
  cases value with
  | null => rfl
  | bool b => cases b <;> rfl
  | number n => exact startsPart_of_readNumber? h.number
  | string s =>
    show startsPart (quote s).toList = true
    unfold quote
    rw [String.toList_ofList]
    rfl
  | array items =>
    rw [toList_render_array]
    rfl
  | object entries =>
    rw [toList_render_object]
    rfl

/-! ## §3. Reading it back. -/

/-- A number at the head of a text is read as a number. -/
theorem readValue_of_readNumber? {cs after : List Char} {n : JsonNumber}
    (h : readNumber? cs = some (some n, after)) (bound levels : Nat) :
    readValue bound levels cs = some (.number n, after) := by
  obtain ⟨c, text, rfl, hc⟩ := exists_of_readNumber? h
  have hne : ∀ (d : Char) (other : List Char), (d == '-' || d.isDigit) = false → c :: text ≠ d :: other := by
    intro d other hd heq
    injection heq with hcd
    rw [hcd, ← beq_iff_eq, ← Bool.or_eq_true, hd] at hc
    cases hc
  rw [readValue.eq_def]
  dsimp only
  split
  next heq => exact absurd heq (hne 'n' _ rfl)
  next heq => exact absurd heq (hne 't' _ rfl)
  next heq => exact absurd heq (hne 'f' _ rfl)
  next heq => exact absurd heq (hne '"' _ rfl)
  next heq => exact absurd heq (hne '[' _ rfl)
  next heq => exact absurd heq (hne '\x7b' _ rfl)
  next =>
    rw [h]
    rfl

/-- The text of an entry is read back if that of its value is. -/
theorem reads_entry {value : Part WrittenJson} {entry : String × Json}
    (hstart : startsPart entry.2.render.toList = true)
    (h : Reads value entry.2.render.toList (.ofJson entry.2)) :
    Reads (readEntry value) (entryText entry) (some entry.1, .ofJson entry.2) := by
  intro rest hrest
  have htext : entryText entry ++ rest = '"' :: (entry.1.toList.flatMap escapeChar ++
      '"' :: (':' :: (entry.2.render.toList ++ rest))) := by
    simp [entryText]
  rw [htext]
  show (readString? [] _).bind _ = _
  rw [readString?_quoted]
  show (value (skipBlanks (entry.2.render.toList ++ rest))).bind _ = _
  rw [skipBlanks_of_startsPart (startsPart_append hstart rest), h rest hrest]
  rfl

/-- The text of a string is read back. -/
theorem reads_string (s : String) (bound levels : Nat) :
    Reads (readValue bound levels) (Json.string s).render.toList (.string s) := by
  intro rest _
  have htext : (Json.string s).render.toList ++ rest = '"' :: (s.toList.flatMap escapeChar ++ '"' :: rest) := by
    simp [render, quote]
  rw [htext, readValue.eq_def]
  show (readString? [] _).map _ = _
  rw [readString?_quoted]
  rfl

/-- The text of an array is read back if those of its items are, one level further in. -/
theorem reads_array {items : List Json} {bound levels : Nat}
    (hstart : ∀ item ∈ items, startsPart item.render.toList = true)
    (h : ∀ item ∈ items, Reads (readValue bound levels) item.render.toList (.ofJson item)) :
    Reads (readValue (bound + 1) (levels + 1)) (Json.array items).render.toList (.ofJson (.array items)) := by
  intro rest _
  have htext : (Json.array items).render.toList ++ rest =
      '[' :: (List.intercalate [','] (items.map fun item => item.render.toList) ++ ']' :: rest) := by
    simp [toList_render_array]
  rw [htext, readValue.eq_def]
  show (readSequence ']' (readValue bound levels) _).map _ = _
  rw [readSequence_intercalate (.inl rfl) hstart h, ← WrittenJson.ofItems_eq_map]
  rfl

/-- The text of an object is read back if those of the values in it are, one level further in. -/
theorem reads_object {entries : List (String × Json)} {bound levels : Nat}
    (hstart : ∀ entry ∈ entries, startsPart entry.2.render.toList = true)
    (h : ∀ entry ∈ entries, Reads (readValue bound levels) entry.2.render.toList (.ofJson entry.2)) :
    Reads (readValue (bound + 1) (levels + 1)) (Json.object entries).render.toList
      (.ofJson (.object entries)) := by
  intro rest _
  have htext : (Json.object entries).render.toList ++ rest =
      '\x7b' :: (List.intercalate [','] (entries.map entryText) ++ '\x7d' :: rest) := by
    simp [toList_render_object]
  have hentry : ∀ entry ∈ entries,
      Reads (readEntry (readValue bound levels)) (entryText entry) (some entry.1, .ofJson entry.2) :=
    fun entry hmem => reads_entry (hstart entry hmem) (h entry hmem)
  rw [htext, readValue.eq_def]
  show (readSequence '\x7d' (readEntry (readValue bound levels)) _).map _ = _
  rw [readSequence_intercalate (.inr rfl) (fun _ _ => rfl) hentry, ← WrittenJson.ofEntries_ofJson]
  rfl

/-- **The text of a value is read back**, whatever stands behind it. -/
theorem reads_render {value : Json} (hnumbers : value.NumbersReadBack) {bound levels : Nat}
    (hbound : value.nesting ≤ bound) (hlevels : value.nesting ≤ levels) :
    Reads (readValue bound levels) value.render.toList (.ofJson value) := by
  induction value generalizing bound levels with
  | null =>
    intro rest _
    rw [readValue.eq_def]
    rfl
  | plain value hplain =>
    cases value with
    | bool b =>
      intro rest _
      rw [readValue.eq_def]
      cases b <;> rfl
    | number n =>
      exact fun rest hrest => readValue_of_readNumber? (readNumber?_append hrest hnumbers.number) bound levels
    | string s => exact reads_string s bound levels
    | _ => cases hplain
  | array items ih =>
    obtain ⟨bound, rfl, hinBound⟩ := exists_of_nesting_array_le hbound
    obtain ⟨levels, rfl, hinLevels⟩ := exists_of_nesting_array_le hlevels
    exact reads_array (fun item hitem => startsPart_render (hnumbers.item hitem))
      fun item hitem => ih item hitem (hnumbers.item hitem) (hinBound item hitem) (hinLevels item hitem)
  | object entries ih =>
    obtain ⟨bound, rfl, hinBound⟩ := exists_of_nesting_object_le hbound
    obtain ⟨levels, rfl, hinLevels⟩ := exists_of_nesting_object_le hlevels
    exact reads_object (fun entry hentry => startsPart_render (hnumbers.entry hentry))
      fun entry hentry =>
        ih entry hentry (hnumbers.entry hentry) (hinBound entry hentry) (hinLevels entry hentry)

/-! ## §4. Whole texts. -/

theorem length_le_intercalate_of_mem {texts : List (List Char)} {text : List Char} (h : text ∈ texts) :
    text.length ≤ (List.intercalate [','] texts).length := by
  induction texts with
  | nil => cases h
  | cons first texts ih =>
    cases texts with
    | nil =>
      rw [List.mem_singleton.1 h, List.intercalate_singleton]
    | cons second texts =>
      rw [List.intercalate_cons_cons, List.length_append, List.length_append]
      rcases List.mem_cons.1 h with rfl | h
      · omega
      · have hrest := ih h
        omega

/-- Each array and each object takes at least its opening bracket. -/
theorem nesting_le_length_render (value : Json) : value.nesting ≤ value.render.toList.length := by
  induction value with
  | null => exact Nat.zero_le _
  | plain value hplain => cases value <;> first | exact Nat.zero_le _ | cases hplain
  | array items ih =>
    rw [toList_render_array, List.length_append, List.length_cons]
    apply nesting_array_le_iff.2
    intro item hitem
    have hitemText := length_le_intercalate_of_mem
      (List.mem_map_of_mem (f := fun item : Json => item.render.toList) hitem)
    have hlength := ih item hitem
    omega
  | object entries ih =>
    rw [toList_render_object, List.length_append, List.length_cons]
    apply nesting_object_le_iff.2
    intro entry hentry
    have hentryText := length_le_intercalate_of_mem (List.mem_map_of_mem (f := entryText) hentry)
    have hvalue : entry.2.render.toList.length ≤ (entryText entry).length := by
      simp only [entryText, List.length_append, List.length_cons]
      omega
    have hlength := ih entry hentry
    omega

/-- **A value is read back from its text**, if its numbers are and it is nested within the limit. -/
theorem readWritten?_render {value : Json} (hnumbers : value.NumbersReadBack)
    (hnesting : value.nesting ≤ nestingLimit) : readWritten? value.render = some (.ofJson value) := by
  have hread : readValue value.render.toList.length nestingLimit (value.render.toList ++ []) =
      some (.ofJson value, []) :=
    reads_render hnumbers value.nesting_le_length_render hnesting [] rfl
  rw [List.append_nil] at hread
  unfold readWritten? readWrittenTo?
  rw [skipBlanks_of_startsPart (startsPart_render hnumbers)]
  show (readValue value.render.toList.length nestingLimit value.render.toList).bind _ = _
  rw [hread]
  rfl

end GraphQLCheck.Json
