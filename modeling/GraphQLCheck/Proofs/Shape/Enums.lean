/-
  GraphQLCheck.Proofs.Shape.Enums
  ───────────────────────────────
  The members of enums that values stand for.

  A text stands for the first member with its name in any letter case, and if there is none, for the first
  member with the number that it reads as.  A number stands for the first member with that number.  Everything
  else but null stands for no member.  The conversion finds members in just this way, with one exception: it
  rounds a number first, so a number that is no integer is taken for a member with the nearest one.

      First             — the first element of a list for which something holds
      EnumShape.Denotes — the member that a value stands for

  Main results:
    * `EnumShape.member?_eq_some_iff`   — what is found is the member that a value stands for
    * `enum_members_are_found_exactly`  — conversions to enums, with what rounding makes of a fraction
-/
import GraphQLCheck.Proofs.Number.Numeral
import GraphQLCheck.Proofs.Shape.Integers

namespace GraphQLCheck

/-! ## §1. The first of a list. -/

/-- The first element of a list for which something holds. -/
def First {α : Type} (holds : α → Prop) (l : List α) (a : α) : Prop :=
  ∃ before after, l = before ++ a :: after ∧ holds a ∧ ∀ earlier ∈ before, ¬holds earlier

namespace First

variable {α : Type} {holds holds' : α → Prop} {l : List α} {a : α}

theorem mem (h : First holds l a) : a ∈ l := by
  obtain ⟨before, after, rfl, _⟩ := h
  exact List.mem_append_right _ (List.mem_cons_self ..)

theorem holds_self (h : First holds l a) : holds a := by
  obtain ⟨_, _, _, hself, _⟩ := h
  exact hself

/-- Only what holds of the elements of the list matters. -/
theorem congr (h : ∀ a ∈ l, holds a ↔ holds' a) : First holds l a ↔ First holds' l a := by
  have himp : ∀ {p q : α → Prop}, (∀ a ∈ l, p a ↔ q a) → First p l a → First q l a := by
    rintro p q hpq ⟨before, after, rfl, hself, hbefore⟩
    refine ⟨before, after, rfl, (hpq a (by simp)).1 hself, fun earlier hearlier => ?_⟩
    rw [← hpq earlier (List.mem_append_left _ hearlier)]
    exact hbefore earlier hearlier
  exact ⟨himp h, himp fun a ha => (h a ha).symm⟩

/-- A search yields the first element that passes the test. -/
theorem iff_find? {p : α → Bool} : First (fun a => p a = true) l a ↔ l.find? p = some a := by
  rw [List.find?_eq_some_iff_append]
  unfold First
  simp only [Bool.not_eq_true, Bool.not_eq_true', ← exists_and_left]
  constructor
  · rintro ⟨before, after, hsplit, hself, hbefore⟩
    exact ⟨before, after, hself, hsplit, hbefore⟩
  · rintro ⟨before, after, hself, hsplit, hbefore⟩
    exact ⟨before, after, hsplit, hself, hbefore⟩

end First

/-! ## §2. What values stand for. -/

namespace EnumShape

/-- The numbers of all members have 64 bits with a sign. -/
def IsSized (shape : EnumShape) : Prop := ∀ member ∈ shape.members, fitsInt64 member.2 = true

instance (shape : EnumShape) : Decidable shape.IsSized :=
  inferInstanceAs (Decidable (∀ member ∈ shape.members, _))

/-- A value stands for a member: a text for the first one with its name in any letter case, and otherwise for
the first one with the integer of 64 bits that it is but for white space around it; a number for the first one
with exactly that number. -/
inductive Denotes (shape : EnumShape) : Json → String × Int → Prop where
  | name {s : String} {member : String × Int} :
      First (fun member => Text.sameIgnoringCase member.1 s = true) shape.members member →
      Denotes shape (.string s) member
  | numeral {s : String} {i : Int} {member : String × Int} :
      (∀ member ∈ shape.members, Text.sameIgnoringCase member.1 s = false) →
      Text.Numeral (Text.trim s.toList) i → fitsInt64 i = true →
      First (fun member => member.2 = i) shape.members member → Denotes shape (.string s) member
  | number {n : JsonNumber} {member : String × Int} :
      First (fun member => (member.2 : ℚ) = n.value) shape.members member → Denotes shape (.number n) member

variable {shape : EnumShape}

theorem findName?_eq_some_iff {s : String} {member : String × Int} : shape.findName? s = some member ↔
    First (fun member => Text.sameIgnoringCase member.1 s = true) shape.members member :=
  First.iff_find?.symm

theorem findValue?_eq_some_iff {i : Int} {member : String × Int} :
    shape.findValue? i = some member ↔ First (fun member => member.2 = i) shape.members member := by
  unfold findValue?
  rw [← First.iff_find?]
  simp only [beq_iff_eq]

/-- A text finds the member that it stands for. -/
theorem member?_string {s : String} {member : String × Int} :
    shape.member? (.string s) = some member ↔ shape.Denotes (.string s) member := by
  unfold member? Json.toInt64?
  rw [Option.or_eq_some_iff, findName?_eq_some_iff]
  simp only [Option.bind_eq_some_iff, findValue?_eq_some_iff, int64?_eq_some_iff, Text.readInt?_eq_some_iff]
  constructor
  · rintro (hname | ⟨hnone, i, ⟨_, hread, hfits, rfl⟩, hfirst⟩)
    · exact .name hname
    · refine .numeral (fun other hother => ?_) hread hfits hfirst
      exact Bool.not_eq_true _ ▸ List.find?_eq_none.1 hnone other hother
  · rintro (hname | ⟨hnone, hread, hfits, hfirst⟩)
    · exact .inl hname
    · refine .inr ⟨?_, _, ⟨_, hread, hfits, rfl⟩, hfirst⟩
      exact List.find?_eq_none.2 fun other hother => Bool.not_eq_true _ ▸ hnone other hother

/-- A number finds the member with the nearest integer. -/
theorem member?_number (hsized : shape.IsSized) {n : JsonNumber} {r : Int} (hnearest : NearestInteger n.value r)
    {member : String × Int} :
    shape.member? (.number n) = some member ↔ First (fun member => member.2 = r) shape.members member := by
  show (Json.number n).toInt64?.bind shape.findValue? = some member ↔ _
  rw [Json.toInt64?_number, n.nearestInteger_roundToInt.eq hnearest]
  simp only [Option.bind_eq_some_iff, findValue?_eq_some_iff, int64?_eq_some_iff]
  constructor
  · rintro ⟨_, ⟨_, rfl⟩, hfirst⟩
    exact hfirst
  · intro hfirst
    refine ⟨r, ⟨?_, rfl⟩, hfirst⟩
    rw [← hfirst.holds_self]
    exact hsized member hfirst.mem

/-- **What is found is the member that a value stands for**, if the value is neither null nor a fraction. -/
theorem member?_eq_some_iff (hsized : shape.IsSized) {value : Json} (hnull : value ≠ .null)
    (hwhole : ∀ n, value = .number n → ∃ i : Int, n.value = i) {member : String × Int} :
    shape.member? value = some member ↔ shape.Denotes value member := by
  cases value with
  | null => exact absurd rfl hnull
  | string s => exact member?_string
  | number n =>
    obtain ⟨i, hi⟩ := hwhole n rfl
    have hnearest : NearestInteger n.value i := hi ▸ .self i
    rw [member?_number hsized hnearest, First.congr fun _ _ => by rw [← Int.cast_inj (α := ℚ), ← hi]]
    exact ⟨.number, fun | .number hfirst => hfirst⟩
  | _ => exact ⟨nofun, nofun⟩

end EnumShape

/-! ## §3. Conversions to enums. -/

namespace ShapeRegistry

variable {registry : ShapeRegistry} {name : String} {shape : EnumShape}

/-- A value converts to an enum as the enum itself converts it. -/
theorem materialize_enum (hshape : registry.enum? name = some shape) {value : Json} (hnull : value ≠ .null) :
    registry.materialize (.enum name) value = shape.materialize value := by
  have hlist : ∀ item, (Shape.enum name).inner ≠ .list item := nofun
  have hobject : ∀ objectName, (Shape.enum name).inner ≠ .object objectName := nofun
  unfold materialize
  rw [Json.materializeWith_eq_leaf hnull hlist hobject, materializeLeaf, materializeEnum, hshape]

/-- A value converts to a member for which something holds, and where this holds of no member, it fails with an
error that quotes the value. -/
structure FindsMember (registry : ShapeRegistry) (name : String) (shape : EnumShape) (value : Json)
    (holds : String × Int → Prop) : Prop where
  found : ∀ result, registry.materialize (.enum name) value = .value result ↔
    ∃ member, holds member ∧ result = .enum member.1 member.2
  unknown : (∀ member, ¬holds member) → registry.materialize (.enum name) value =
    .failure (.unknownEnumValue (EnumShape.foundText value) shape.name)

theorem findsMember_of_member? (hshape : registry.enum? name = some shape) {value : Json} (hnull : value ≠ .null)
    {holds : String × Int → Prop} (h : ∀ member, shape.member? value = some member ↔ holds member) :
    registry.FindsMember name shape value holds := by
  constructor
  · intro result
    rw [materialize_enum hshape hnull]
    unfold EnumShape.materialize
    simp only [← h]
    cases shape.member? value with
    | some member => simp [eq_comm]
    | none => simp
  · intro hnone
    have hmember : shape.member? value = none := by
      rw [Option.eq_none_iff_forall_ne_some]
      exact fun member hmember => hnone member ((h member).1 hmember)
    rw [materialize_enum hshape hnull, EnumShape.materialize, hmember]

end ShapeRegistry

/-- **A value converts to the member of an enum that it stands for, unless it is a fraction.**  A text converts
to the first member with its name in any letter case, or else to the first with the integer that it is; an
integer converts to the first member with that number; and what stands for no member fails, with an error that
quotes it.  A number that is no integer converts to the first member with the nearest one. -/
theorem enum_members_are_found_exactly {registry : ShapeRegistry} {name : String} {shape : EnumShape}
    (hshape : registry.enum? name = some shape) (hsized : shape.IsSized) {value : Json} (hnull : value ≠ .null) :
    ((∀ n, value = .number n → ∃ i : Int, n.value = i) →
      registry.FindsMember name shape value (shape.Denotes value)) ∧
    ∀ n r, value = .number n → NearestInteger n.value r →
      registry.FindsMember name shape value (First (fun member => member.2 = r) shape.members) := by
  constructor
  · intro hwhole
    exact ShapeRegistry.findsMember_of_member? hshape hnull fun _ =>
      EnumShape.member?_eq_some_iff hsized hnull hwhole
  · rintro n r rfl hnearest
    exact ShapeRegistry.findsMember_of_member? hshape hnull fun _ => EnumShape.member?_number hsized hnearest

/-! ## §4. Colours. -/

namespace Palette

def color : EnumShape := .ofNames "Color" ["RED", "GREEN", "BLUE"]

def registry : ShapeRegistry := ShapeRegistry.addEnum {} color

/-- The double 2.5. -/
def twoAndHalf : FiniteDouble := ⟨false, 5629499534213120, 1023, by decide, by decide, .inr (by decide)⟩

theorem twoAndHalf_ne_integer (i : Int) : (JsonNumber.float twoAndHalf).value ≠ i := by
  intro heq
  have hexact : twoAndHalf.exactInt? = some i := FiniteDouble.exactInt?_eq_some_iff.2 heq
  have hnone : twoAndHalf.exactInt? = none := by decide +kernel
  rw [hnone] at hexact
  cases hexact

theorem nearestInteger_twoAndHalf : NearestInteger (JsonNumber.float twoAndHalf).value 2 := by
  have hround : twoAndHalf.roundToInt = 2 := by decide +kernel
  rw [← hround]
  exact twoAndHalf.nearestInteger_roundToInt

theorem enum?_color : registry.enum? "Color" = some color := rfl

theorem color_isSized : color.IsSized := by decide

/-- A text is the number of green, the second colour. -/
theorem denotes_numeral : color.Denotes (.string " +1 ") ("GREEN", 1) := by
  have htrim : Text.trim " +1 ".toList = ['+', '1'] := by decide
  have hnumeral : Text.Numeral (Text.trim " +1 ".toList) 1 := by
    rw [htrim]
    exact .plus (by decide) (List.all_eq_true.1 (by decide))
  refine .numeral (by decide) hnumeral (by decide) ⟨[("RED", 0)], [("BLUE", 2)], rfl, rfl, ?_⟩
  decide

/-- The text converts to green; two and a half converts as the number of blue does. -/
theorem colors_found_by_number :
    registry.materialize (.enum "Color") (.string " +1 ") = .value (.enum "GREEN" 1) ∧
    registry.FindsMember "Color" color (.number (.float twoAndHalf))
      (First (fun member => member.2 = 2) color.members) := by
  have htext : Json.string " +1 " ≠ .null := fun h => by cases h
  have hbetween : Json.number (.float twoAndHalf) ≠ .null := fun h => by cases h
  constructor
  · have hfinds := (enum_members_are_found_exactly enum?_color color_isSized htext).1 fun _ h => by cases h
    exact (hfinds.found _).2 ⟨("GREEN", 1), denotes_numeral, rfl⟩
  · exact (enum_members_are_found_exactly enum?_color color_isSized hbetween).2 _ 2 rfl nearestInteger_twoAndHalf

/-- **Two and a half is taken for blue**, the member with the number two, though it is the number of no member. -/
theorem twoAndHalf_taken_for_blue :
    registry.enum? "Color" = some color ∧ color.IsSized ∧
    (∀ member, ¬color.Denotes (.number (.float twoAndHalf)) member) ∧
    registry.materialize (.enum "Color") (.number (.float twoAndHalf)) = .value (.enum "BLUE" 2) := by
  refine ⟨enum?_color, color_isSized, ?_, ?_⟩
  · intro member hdenotes
    cases hdenotes with
    | number hfirst => exact twoAndHalf_ne_integer _ hfirst.holds_self.symm
  · have hbetween : Json.number (.float twoAndHalf) ≠ .null := fun h => by cases h
    have hblue : First (fun member : String × Int => member.2 = 2) color.members ("BLUE", 2) :=
      ⟨[("RED", 0), ("GREEN", 1)], [], rfl, rfl, by decide⟩
    rw [ShapeRegistry.materialize_enum enum?_color hbetween, EnumShape.materialize,
      (EnumShape.member?_number color_isSized nearestInteger_twoAndHalf).2 hblue]

end Palette

end GraphQLCheck
