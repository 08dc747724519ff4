/-
  GraphQLCheck.Schema.Declarations
  ────────────────────────────────
  Named things in the order in which they were declared, no two with one name.  Fields, parameters,
  values, members and types are all kept this way.

      add?  — declare one more thing, if its name is new
      find? — the thing with a name

  Main facts: `toList_add?` (what was declared stays, the new thing comes last), `add?_eq_none_iff`
  (a thing is refused exactly when its name is taken), `find?_eq_some_iff`, `find?_mapNamed` (what
  replaces a thing under its name is found under it).
-/

namespace GraphQLCheck

/-- Things that have a name. -/
class Named (α : Type) where
  nameOf : α → String

/-- Things in order of declaration, each name once. -/
structure Declarations (α : Type) [Named α] where
  toList : List α
  distinct : (toList.map Named.nameOf).Nodup

namespace Declarations

variable {α : Type} [Named α]

/-- Nothing declared. -/
def empty : Declarations α := ⟨[], .nil⟩

instance : Inhabited (Declarations α) := ⟨empty⟩

/-- The names, in order. -/
def names (ds : Declarations α) : List String := ds.toList.map Named.nameOf

/-- The thing with a name. -/
def find? (ds : Declarations α) (name : String) : Option α :=
  ds.toList.find? fun a => Named.nameOf a == name

/-- Whether there is a thing with a name. -/
def contains (ds : Declarations α) (name : String) : Bool := ds.names.contains name

/-- Declare one more thing, after the others; none if its name is taken. -/
def add? (ds : Declarations α) (a : α) : Option (Declarations α) :=
  if h : Named.nameOf a ∈ ds.names then none
  else some ⟨ds.toList ++ [a], by
    rw [List.map_append, List.nodup_append]
    refine ⟨ds.distinct, by simp, ?_⟩
    intro x hx y hy
    simp only [List.map_cons, List.map_nil, List.mem_singleton] at hy
    subst hy
    exact fun e => h (e ▸ hx)⟩

/-- Replace every thing by one with the same name. -/
def mapNamed (ds : Declarations α) (f : α → α) (h : ∀ a, Named.nameOf (f a) = Named.nameOf a) :
    Declarations α :=
  ⟨ds.toList.map f, by
    have : (ds.toList.map f).map Named.nameOf = ds.toList.map Named.nameOf := by
      simp [List.map_map, Function.comp_def, h]
    rw [this]; exact ds.distinct⟩

@[simp] theorem toList_empty : (empty : Declarations α).toList = [] := rfl

/-- What was declared stays, and the new thing comes last. -/
theorem toList_add? {ds ds' : Declarations α} {a : α} (h : ds.add? a = some ds') :
    ds'.toList = ds.toList ++ [a] := by
  unfold add? at h
  split at h
  · cases h
  · cases h; rfl

/-- A thing is refused exactly when its name is taken. -/
theorem add?_eq_none_iff {ds : Declarations α} {a : α} :
    ds.add? a = none ↔ Named.nameOf a ∈ ds.names := by
  unfold add?
  split <;> simp_all

theorem eq_of_toList_eq {ds ds' : Declarations α} (h : ds.toList = ds'.toList) : ds = ds' := by
  cases ds
  cases ds'
  cases h
  rfl

/-- One more thing is declared exactly if it can come last. -/
theorem add?_eq_some_iff {ds ds' : Declarations α} {a : α} :
    ds.add? a = some ds' ↔ ds'.toList = ds.toList ++ [a] := by
  refine ⟨toList_add?, fun h => ?_⟩
  have hnew : Named.nameOf a ∉ ds.names := by
    intro hmem
    have hdistinct := ds'.distinct
    rw [h, List.map_append, List.nodup_append] at hdistinct
    exact hdistinct.2.2 _ hmem _ (List.mem_singleton.2 rfl) rfl
  unfold add?
  rw [dif_neg hnew]
  exact congrArg some (eq_of_toList_eq h.symm)

/-- What is found is declared and has the name that was looked for. -/
theorem mem_of_find? {ds : Declarations α} {name : String} {a : α}
    (h : ds.find? name = some a) : a ∈ ds.toList ∧ Named.nameOf a = name := by
  have h' := List.find?_some h
  exact ⟨List.mem_of_find?_eq_some h, by simpa using h'⟩

/-- The thing with a name is the one that is declared with it. -/
theorem find?_eq_some_iff {ds : Declarations α} {name : String} {a : α} :
    ds.find? name = some a ↔ a ∈ ds.toList ∧ Named.nameOf a = name := by
  refine ⟨mem_of_find?, fun ⟨hmem, hname⟩ => ?_⟩
  have key : ∀ l : List α, (l.map Named.nameOf).Nodup → a ∈ l →
      l.find? (fun b => Named.nameOf b == name) = some a := by
    intro l
    induction l with
    | nil => intro _ h; cases h
    | cons b l ih =>
      intro hnd hin
      simp only [List.map_cons, List.nodup_cons] at hnd
      rcases List.mem_cons.1 hin with rfl | hin
      · simp [hname]
      · have hne : Named.nameOf b ≠ name := by
          intro e
          exact hnd.1 (e ▸ hname ▸ List.mem_map_of_mem hin)
        simp [hne, ih hnd.2 hin]
  exact key ds.toList ds.distinct hmem

/-- What is declared under one name is one thing. -/
theorem eq_of_name_eq {ds : Declarations α} {a b : α} (ha : a ∈ ds.toList) (hb : b ∈ ds.toList)
    (h : Named.nameOf a = Named.nameOf b) : a = b := by
  have hfind := find?_eq_some_iff.2 ⟨ha, h⟩
  rw [find?_eq_some_iff.2 ⟨hb, rfl⟩] at hfind
  exact (Option.some.inj hfind).symm

theorem contains_iff {ds : Declarations α} {name : String} :
    ds.contains name = true ↔ ∃ a ∈ ds.toList, Named.nameOf a = name := by
  unfold contains names
  rw [List.contains_iff_mem, List.mem_map]

/-- A name is declared exactly if something is found under it. -/
theorem contains_iff_find? {ds : Declarations α} {name : String} :
    ds.contains name = true ↔ ∃ a, ds.find? name = some a := by
  rw [contains_iff]
  exact exists_congr fun _ => find?_eq_some_iff.symm

/-- Under a name is found what replaces the thing that was found there. -/
theorem find?_mapNamed (ds : Declarations α) (f : α → α) (h : ∀ a, Named.nameOf (f a) = Named.nameOf a)
    (name : String) : (ds.mapNamed f h).find? name = (ds.find? name).map f := by
  unfold find? mapNamed
  rw [List.find?_map]
  simp only [Function.comp_def, h]

theorem contains_mapNamed (ds : Declarations α) (f : α → α)
    (h : ∀ a, Named.nameOf (f a) = Named.nameOf a) (name : String) :
    (ds.mapNamed f h).contains name = ds.contains name := by
  unfold contains names mapNamed
  rw [List.map_map]
  simp only [Function.comp_def, h]

end Declarations

instance : Named String := ⟨id⟩

instance : Named (String × α) := ⟨Prod.fst⟩

end GraphQLCheck
