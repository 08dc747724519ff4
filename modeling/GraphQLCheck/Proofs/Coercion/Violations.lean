/-
  GraphQLCheck.Proofs.Coercion.Violations
  ───────────────────────────────────────
  The violations of literals and of runtime values.

  The check of a literal finds its violations in order, and so does that of a runtime value.  If no object
  that is looked at gives a field twice, there is one problem at one place, and since of two places one comes
  first, there is only one list of the violations in order: the one that is found.

  Main facts:
    * `Grounds.Finds.nodup`                 — no two problems stand at one place
    * `Grounds.Finds.eq`                    — there is one list of the violations in order
    * `checks_find_exactly_the_violations`  — the checks of literals and of runtime values
-/
import GraphQLCheck.Proofs.Coercion.Grounds
import GraphQLCheck.Proofs.Document.Stored

namespace GraphQLCheck

variable {α β : Type}

/-! ## §1. One problem at one place. -/

/-- Two things stand one way round in a list without duplicates. -/
theorem not_sublist_swap {l : List α} (hnodup : l.Nodup) {a b : α} (h : [a, b].Sublist l)
    (hswap : [b, a].Sublist l) : False := by
  induction l with
  | nil => cases h
  | cons c l ih =>
    rw [List.nodup_cons] at hnodup
    rcases List.sublist_cons_iff.1 hswap with hswap' | ⟨_, heq, hlater⟩
    · rcases List.sublist_cons_iff.1 h with h | ⟨_, heq, _⟩
      · exact ih hnodup.2 h hswap'
      · -- the first of both stands at the head, and after the second as well
        cases heq
        exact hnodup.1 (hswap'.subset (List.mem_cons_of_mem _ (List.mem_singleton.2 rfl)))
    · cases heq
      rcases List.sublist_cons_iff.1 h with h | ⟨_, heq, _⟩
      · exact hnodup.1 (h.subset (List.mem_cons_of_mem _ (List.mem_singleton.2 rfl)))
      · cases heq
        exact hnodup.1 (hlater.subset (List.mem_singleton.2 rfl))

/-- An object that gives each field once has each field once in its order. -/
theorem InputObjectType.nodup_fieldOrder {type : InputObjectType} {given : List String} (h : given.Nodup) :
    (type.fieldOrder given).Nodup := by
  unfold fieldOrder
  rw [List.nodup_append]
  refine ⟨h.filter _, type.fields.distinct, ?_⟩
  rintro key hkey name hname rfl
  have hunknown := (List.mem_filter.1 hkey).2
  unfold Declarations.contains at hunknown
  rw [List.contains_iff_mem.2 hname] at hunknown
  cases hunknown

namespace Checked.Grounds

variable {grounds : Grounds α β} {schema : Schema} {value : α} {type inner : TypeRef}
  {problems : List (Problem β)}

theorem KeysDistinct.descend {steps : List PathStep} {part : α} {partType : TypeRef}
    (h : grounds.KeysDistinct schema value type)
    (hdescends : grounds.Descends schema value type steps part partType) :
    grounds.KeysDistinct schema part partType :=
  fun _ _ _ _ hexamines => h _ _ _ _ (.further hdescends hexamines)

/-- No object that is looked at gives a field twice, if no object of some kind does, and the parts of what is of
the kind are of it as well. -/
theorem KeysDistinct.of_inherited {P : α → Prop}
    (hobject : ∀ value fields, P value → grounds.view value = .object fields → (fields.map Prod.fst).Nodup)
    (hparts : ∀ value, P value → ∀ part ∈ (grounds.view value).parts, P part) (homitted : P grounds.omitted)
    (h : P value) : grounds.KeysDistinct schema value type := by
  intro path part partType fields hexamines hview
  have hinherited : P part := by
    clear hview
    induction hexamines with
    | here => exact h
    | further hdescends _ ih =>
      apply ih
      cases hdescends with
      | nonNull _ | single _ _ => exact h
      | element hview hitem =>
        have hmem := hparts _ h
        rw [hview] at hmem
        exact hmem _ (List.mem_of_getElem? hitem)
      | @field fields _ _ field hview _ _ =>
        have hmem := hparts _ h
        rw [hview] at hmem
        cases hlookup : fields.lookup field.name with
        | none => exact homitted
        | some given => exact hmem given (List.mem_map_of_mem (mem_of_lookup hlookup))
  exact hobject part fields hinherited hview

/-- No way comes before itself. -/
theorem Before.ne {path path' : List PathStep} (hdistinct : grounds.KeysDistinct schema value type)
    (h : grounds.Before schema value type path path') : path ≠ path' := by
  induction h with
  | elements _ hlt =>
    rintro ⟨⟩
    exact Nat.lt_irrefl _ hlt
  | @fields _ _ _ _ _ inputType _ _ hview _ hsublist =>
    have hnodup := inputType.nodup_fieldOrder (hdistinct _ _ _ _ .here hview)
    rintro ⟨⟩
    exact List.pairwise_iff_forall_sublist.1 hnodup hsublist rfl
  | within hdescends _ ih =>
    intro heq
    exact ih (hdistinct.descend hdescends) (List.append_cancel_left heq)

/-- **No two problems stand at one place**, if no object gives a field twice. -/
theorem Finds.nodup (h : grounds.Finds schema value type problems)
    (hdistinct : grounds.KeysDistinct schema value type) : (problems.map Problem.path).Nodup :=
  h.ordered.imp fun hbefore => hbefore.ne hdistinct

section Order

variable {path path' : List PathStep}

theorem Before.of_nonNull (h : grounds.Before schema value (.nonNull inner) path path') :
    grounds.Before schema value inner path path' := by
  cases h with
  | within hdescends hbefore =>
    cases hdescends with
    | nonNull _ => exact hbefore

theorem Before.of_single (hnoList : ∀ items, grounds.view value ≠ .list items)
    (h : grounds.Before schema value (.list inner) path path') :
    grounds.Before schema value inner path path' := by
  cases h with
  | elements hview _ => exact absurd hview (hnoList _)
  | within hdescends hbefore =>
    cases hdescends with
    | element hview _ => exact absurd hview (hnoList _)
    | single _ _ => exact hbefore

/-- Ways into a list lead to elements. -/
theorem Before.exists_elements {items : List α} {element : TypeRef} (hview : grounds.view value = .list items)
    (h : grounds.Before schema value (.list element) path path') :
    ∃ index rest later rest', path = .element index :: rest ∧ path' = .element later :: rest' ∧
      (index < later ∨ index = later ∧ ∃ item, items[index]? = some item ∧
        grounds.Before schema item element rest rest') := by
  cases h with
  | elements _ hlt => exact ⟨_, _, _, _, rfl, rfl, .inl hlt⟩
  | within hdescends hbefore =>
    obtain ⟨index, hitem, rfl, rfl⟩ := (descends_list_iff hview).1 hdescends
    exact ⟨index, _, index, _, rfl, rfl, .inr ⟨rfl, _, hitem, hbefore⟩⟩

/-- Ways into an object lead to fields. -/
theorem Before.exists_fields {fields : List (String × α)} {name : String} {type : InputObjectType}
    (hview : grounds.view value = .object fields) (hfind : schema.find? name = some (.inputObject type))
    (h : grounds.Before schema value (.named name) path path') :
    ∃ key rest later rest', path = .field key :: rest ∧ path' = .field later :: rest' ∧
      ([key, later].Sublist (type.fieldOrder (fields.map Prod.fst)) ∨
        key = later ∧ ∃ field ∈ type.fields.toList, key = field.name ∧
          grounds.Before schema ((fields.lookup field.name).getD grounds.omitted) field.type rest rest') := by
  cases h with
  | fields hview' hfind' hsublist =>
    rw [hview] at hview'
    cases hview'
    rw [hfind] at hfind'
    cases hfind'
    exact ⟨_, _, _, _, rfl, rfl, .inl hsublist⟩
  | within hdescends hbefore =>
    obtain ⟨field, hfield, rfl, rfl, rfl⟩ := (descends_object_iff hview hfind).1 hdescends
    exact ⟨field.name, _, field.name, _, rfl, rfl, .inr ⟨rfl, field, hfield, rfl, hbefore⟩⟩

/-- No way comes after one that it comes before. -/
theorem Before.asymm (hdistinct : grounds.KeysDistinct schema value type)
    (h : grounds.Before schema value type path path') : ¬ grounds.Before schema value type path' path := by
  intro hback
  -- along the first way: where both part, the second one would have to part the other way round
  induction h with
  | elements hview hlt =>
    obtain ⟨_, _, _, _, heq, heq', hgt | ⟨rfl, _⟩⟩ := hback.exists_elements hview
    · cases heq
      cases heq'
      exact Nat.lt_asymm hlt hgt
    · cases heq
      cases heq'
      exact Nat.lt_irrefl _ hlt
  | @fields _ _ _ _ _ inputType _ _ hview hfind hsublist =>
    have hnodup := inputType.nodup_fieldOrder (hdistinct _ _ _ _ .here hview)
    obtain ⟨_, _, _, _, heq, heq', hback | ⟨rfl, _⟩⟩ := hback.exists_fields hview hfind
    · cases heq
      cases heq'
      exact not_sublist_swap hnodup hsublist hback
    · cases heq
      cases heq'
      exact List.pairwise_iff_forall_sublist.1 hnodup hsublist rfl
  | within hdescends hbefore ih =>
    have hdistinct' := hdistinct.descend hdescends
    cases hdescends with
    | nonNull _ => exact ih hdistinct' hback.of_nonNull
    | single _ hnoList => exact ih hdistinct' (hback.of_single hnoList)
    | element hview hitem =>
      obtain ⟨_, _, _, _, heq, heq', hgt | ⟨_, _, hitem', hback⟩⟩ := hback.exists_elements hview
      · cases heq
        cases heq'
        exact Nat.lt_irrefl _ hgt
      · cases heq
        cases heq'
        rw [hitem] at hitem'
        cases hitem'
        exact ih hdistinct' hback
    | @field _ _ inputType field hview hfind hfield =>
      have hnodup := inputType.nodup_fieldOrder (hdistinct _ _ _ _ .here hview)
      obtain ⟨_, _, _, _, heq, heq', hsublist | ⟨_, field', hfield', hname, hback⟩⟩ :=
        hback.exists_fields hview hfind
      · cases heq
        cases heq'
        exact List.pairwise_iff_forall_sublist.1 hnodup hsublist rfl
      · cases heq
        cases heq'
        cases Declarations.eq_of_name_eq hfield' hfield hname.symm
        exact ih hdistinct' hback

/-- **There is one list of the violations in order**, if no object gives a field twice. -/
theorem Finds.eq {others : List (Problem β)} (hdistinct : grounds.KeysDistinct schema value type)
    (h : grounds.Finds schema value type problems) (hothers : grounds.Finds schema value type others) :
    problems = others := by
  have hsame : problems.Perm others := by
    rw [List.perm_ext_iff_of_nodup (.of_map _ (h.nodup hdistinct)) (.of_map _ (hothers.nodup hdistinct))]
    intro problem
    rw [h.mem_iff, hothers.mem_iff]
  refine hsame.eq_of_pairwise (fun problem other _ _ hbefore hback => ?_) (List.pairwise_map.1 h.ordered)
    (List.pairwise_map.1 hothers.ordered)
  exact absurd hback (hbefore.asymm hdistinct)

end Order

end Checked.Grounds

/-! ## §2. Literals and runtime values. -/

namespace Schema

open Checked (Grounds)

variable (schema : Schema)

/-- What may be wrong with a literal, or with none at all.  The type that a message expects is not known where
it has a name that is not defined. -/
def literalGrounds : Grounds (Option Literal) Literal where
  view := schema.literalReading.view
  omitted := none
  excluded
    | .named name => .nullLiteral ((schema.find? name).map fun type => .named type.name)
    | inner => .nullLiteral (some inner)
  read literal? definition := definition.parseLiteral (literal?.getD .null)
  quoted literal? := literal?.getD .null

/-- What may be wrong with a runtime value. -/
def valueGrounds : Grounds Json Json where
  view := schema.valueReading.view
  omitted := .null
  excluded inner := .nullValue (.nonNull inner)
  read value definition := definition.parseValue value
  quoted value := value

theorem literalGrounds_reading : schema.literalGrounds.reading schema = schema.literalReading := by
  have hnull : (schema.literalGrounds.reading schema).nullProblems = schema.nullLiteralProblems := by
    funext type
    cases type with
    | nonNull inner => cases inner <;> rfl
    | _ => rfl
  unfold Grounds.reading at hnull ⊢
  unfold literalReading
  congr 1

theorem valueGrounds_reading : schema.valueGrounds.reading schema = schema.valueReading := by
  have hnull : (schema.valueGrounds.reading schema).nullProblems = nullValueProblems := by
    funext type
    cases type <;> rfl
  unfold Grounds.reading at hnull ⊢
  unfold valueReading
  congr 1

variable {schema}

/-- **The check of a literal finds the violations, in order.** -/
theorem finds_literalProblems (type : TypeRef) (literal? : Option Literal) :
    schema.literalGrounds.Finds schema literal? type (schema.literalProblems type literal?) := by
  have hfollows := schema.follows_literalProblems
  have hends := schema.ends_literalCheck ⟨type, literal?⟩
  unfold literalCheck at hfollows hends
  rw [← literalGrounds_reading] at hfollows hends
  exact Grounds.finds_of_follows hfollows hends

/-- **The check of a runtime value finds the violations, in order.** -/
theorem finds_valueProblems (type : TypeRef) (value : Json) :
    schema.valueGrounds.Finds schema value type (value.problems schema type) := by
  have hfollows := schema.follows_valueProblems
  have hends := schema.ends_valueCheck ⟨type, value⟩
  unfold valueCheck at hfollows hends
  rw [← valueGrounds_reading] at hfollows hends
  exact Grounds.finds_of_follows hfollows hends

end Schema

/-- A literal whose objects give each field once gives no field twice where it is looked at. -/
theorem Literal.keysDistinct {schema : Schema} {type : TypeRef} {literal : Literal}
    (h : literal.isDistinct = true) :
    schema.literalGrounds.KeysDistinct schema (some literal) type := by
  refine Checked.Grounds.KeysDistinct.of_inherited
    (P := fun literal? => ∀ literal, literal? = some literal → literal.isDistinct = true)
    (fun literal? fields hdistinct hview => ?_) (fun literal? hdistinct part hpart => ?_)
    (fun _ hnone => nomatch hnone) (fun _ hsome => Option.some.inj hsome ▸ h)
  · change schema.literalReading.view literal? = .object fields at hview
    cases literal? with
    | none => cases hview
    | some literal =>
      cases literal with
      | object fields =>
        cases hview
        rw [List.map_map]
        exact (isDistinct_object_iff.1 (hdistinct _ rfl)).1
      | _ => cases hview
  · rintro literal rfl
    change some literal ∈ (schema.literalReading.view literal?).parts at hpart
    cases literal? with
    | none => cases hpart
    | some whole =>
      cases whole with
      | list items =>
        obtain ⟨item, hitem, heq⟩ := List.mem_map.1 hpart
        cases heq
        exact isDistinct_list_iff.1 (hdistinct _ rfl) _ hitem
      | object fields =>
        obtain ⟨_, hentry, heq⟩ := List.mem_map.1 hpart
        obtain ⟨field, hfield, rfl⟩ := List.mem_map.1 hentry
        cases heq
        exact (isDistinct_object_iff.1 (hdistinct _ rfl)).2 field hfield
      | _ => cases hpart

namespace Json

mutual
/-- Whether every object in a runtime value gives each of its keys once. -/
def isDistinct : Json → Bool
  | .array items => itemsDistinct items
  | .object entries => decide (entries.map Prod.fst).Nodup && entriesDistinct entries
  | .null | .bool _ | .number _ | .string _ => true
/-- Whether every object in the items of an array gives each of its keys once. -/
def itemsDistinct : List Json → Bool
  | [] => true
  | item :: items => item.isDistinct && itemsDistinct items
/-- Whether every object in the entries of an object gives each of its keys once. -/
def entriesDistinct : List (String × Json) → Bool
  | [] => true
  | (_, value) :: entries => value.isDistinct && entriesDistinct entries
end

theorem isDistinct_array_iff {items : List Json} :
    (Json.array items).isDistinct = true ↔ ∀ item ∈ items, item.isDistinct = true := by
  show itemsDistinct items = true ↔ _
  induction items with
  | nil => simp [itemsDistinct]
  | cons item items ih => simp [itemsDistinct, ih]

theorem isDistinct_object_iff {entries : List (String × Json)} :
    (Json.object entries).isDistinct = true ↔
      (entries.map Prod.fst).Nodup ∧ ∀ entry ∈ entries, entry.2.isDistinct = true := by
  have hentries : entriesDistinct entries = true ↔ ∀ entry ∈ entries, entry.2.isDistinct = true := by
    induction entries with
    | nil => simp [entriesDistinct]
    | cons entry entries ih => simp [entriesDistinct, ih]
  show (decide (entries.map Prod.fst).Nodup && entriesDistinct entries) = true ↔ _
  rw [Bool.and_eq_true, decide_eq_true_eq, hentries]

/-- A runtime value whose objects give each key once gives none twice where it is looked at. -/
theorem keysDistinct {schema : Schema} {type : TypeRef} {value : Json} (h : value.isDistinct = true) :
    schema.valueGrounds.KeysDistinct schema value type := by
  refine Checked.Grounds.KeysDistinct.of_inherited (P := fun value => value.isDistinct = true)
    (fun value fields hdistinct hview => ?_) (fun value hdistinct part hpart => ?_) rfl h
  · change schema.valueReading.view value = .object fields at hview
    cases value with
    | object entries =>
      cases hview
      exact (isDistinct_object_iff.1 hdistinct).1
    | _ => cases hview
  · change part ∈ (schema.valueReading.view value).parts at hpart
    cases value with
    | array items => exact isDistinct_array_iff.1 hdistinct part hpart
    | object entries =>
      obtain ⟨entry, hentry, rfl⟩ := List.mem_map.1 hpart
      exact (isDistinct_object_iff.1 hdistinct).2 entry hentry
    | _ => cases hpart

end Json

/-- The text of a problem is that of the violation, with the steps that lead to it before it, the outermost
one first. -/
theorem Problem.message_eq_foldr (write : α → String) (problem : Problem α) :
    problem.message write = problem.path.foldr (fun step text =>
      match step with
      | .element index => "In element " ++ Text.showNat index ++ ": " ++ text
      | .field name => "In field \"" ++ name ++ "\": " ++ text) (problem.violation.message write) := by
  obtain ⟨path, violation⟩ := problem
  induction path with
  | nil => exact String.empty_append
  | cons step path ih =>
    have hwithin := Problem.message_within write step ⟨path, violation⟩
    rw [ih] at hwithin
    cases step <;> exact hwithin

/-- **The checks find exactly the violations.**  The problems of a literal, or of none, are the violations of it
and of what is looked at within it, in order, and where no object gives a field twice each is found once, and no
other list is that of the violations.  The same holds of a runtime value.  In the text of a problem the steps to
the violation come before it, the outermost one first. -/
theorem checks_find_exactly_the_violations (schema : Schema) (type : TypeRef) :
    (∀ literal? : Option Literal,
      schema.literalGrounds.Finds schema literal? type (schema.literalProblems type literal?) ∧
      (schema.literalGrounds.KeysDistinct schema literal? type →
        ((schema.literalProblems type literal?).map Problem.path).Nodup ∧
        ∀ others, schema.literalGrounds.Finds schema literal? type others →
          others = schema.literalProblems type literal?)) ∧
    (∀ value : Json,
      schema.valueGrounds.Finds schema value type (value.problems schema type) ∧
      (schema.valueGrounds.KeysDistinct schema value type →
        ((value.problems schema type).map Problem.path).Nodup ∧
        ∀ others, schema.valueGrounds.Finds schema value type others →
          others = value.problems schema type)) ∧
    (∀ problem : Problem Literal, problem.literalMessage = problem.path.foldr (fun step text =>
      match step with
      | .element index => "In element " ++ Text.showNat index ++ ": " ++ text
      | .field name => "In field \"" ++ name ++ "\": " ++ text)
      (problem.violation.message Literal.render)) ∧
    (∀ problem : Problem Json, problem.valueMessage = problem.path.foldr (fun step text =>
      match step with
      | .element index => "In element " ++ Text.showNat index ++ ": " ++ text
      | .field name => "In field \"" ++ name ++ "\": " ++ text)
      (problem.violation.message Json.render)) := by
  refine ⟨fun literal? => ?_, fun value => ?_, Problem.message_eq_foldr _, Problem.message_eq_foldr _⟩
  · have hfinds := schema.finds_literalProblems type literal?
    exact ⟨hfinds, fun hdistinct => ⟨hfinds.nodup hdistinct, fun _ hothers => hothers.eq hdistinct hfinds⟩⟩
  · have hfinds := schema.finds_valueProblems type value
    exact ⟨hfinds, fun hdistinct => ⟨hfinds.nodup hdistinct, fun _ hothers => hothers.eq hdistinct hfinds⟩⟩

namespace Search

/-- `{order: NONE, color: 1, tags: ["lean", null, 7], range: {to: "x"}}`: an order that there is not, a field that is
not declared, tags that are null and no text, and a range without its lower end. -/
def spoiltFilter : Literal :=
  .object [("order", .enum "NONE"), ("color", .int 1),
    ("tags", .list [.string "lean", .null, .int 7]), ("range", .object [("to", .string "x")])]

/-- All that is wrong with the filter is found once, what is not declared first, and then in the order in which
the fields are declared. -/
theorem spoiltFilter_violations :
    (schema.literalProblems (.named "Filter") (some spoiltFilter)).map Problem.literalMessage =
      ["In field \"color\": Unknown field.",
        "In field \"tags\": In element 1: Expected String, found null",
        "In field \"tags\": In element 2: Expected type \"String\", found 7.",
        "In field \"order\": Expected type \"Order\", found NONE.",
        "In field \"range\": In field \"from\": Expected Int, found null",
        "In field \"range\": In field \"to\": Expected type \"Int\", found \"x\"."] ∧
    ((schema.literalProblems (.named "Filter") (some spoiltFilter)).map Problem.path).Nodup ∧
    ((Json.problems schema (.object [("order", .string "NONE")]) (.named "Filter")).map Problem.valueMessage =
      ["In field \"order\": Expected type \"Order\", found \"NONE\".",
        "In field \"range\": Expected \"Range!\", found null."] ∧
    ((Json.problems schema (.object [("order", .string "NONE")]) (.named "Filter")).map Problem.path).Nodup) := by
  have hfound := checks_find_exactly_the_violations schema (.named "Filter")
  have hliteral := (hfound.1 (some spoiltFilter)).2 (Literal.keysDistinct rfl)
  have hvalue := (hfound.2.1 (.object [("order", .string "NONE")])).2 (Json.keysDistinct rfl)
  exact ⟨by decide, hliteral.1, by decide, hvalue.1⟩

end Search

end GraphQLCheck
