/-
  GraphQLCheck.Proofs.Schema.Built
  ────────────────────────────────
  The schemas that can be built, and the built-in scalars in them.

  A schema is built if a reachable builder yields it.  Every builder starts with the built-in scalars, and
  a coercion is given to custom scalars only, so the five built-in ones stay what they are.

  Main facts:
    * `Schema.Built.find?_builtin` — the name of a built-in scalar stands for that scalar
    * `Schema.Built.builtin_of_isBuiltin` — and no other scalar has such a name
    * `Schema.Built.forall_scalar` — so what is known of these need be assumed of custom scalars only
-/
import GraphQLCheck.Proofs.Schema.Building

namespace GraphQLCheck

/-! ## §1. Built schemas. -/

namespace Schema

/-- A schema that a reachable builder yields. -/
def Built (schema : Schema) : Prop :=
  ∃ builder : SchemaBuilder, builder.Reachable ∧ builder.build = .ok schema

theorem mem_of_find? {schema : Schema} {name : String} {type : TypeDef}
    (h : schema.find? name = some type) : type ∈ schema.types.toList :=
  (Declarations.mem_of_find? h).1

/-- A built-in scalar has the name of one. -/
theorem isBuiltin_of_mem {type : ScalarType} (h : type ∈ ScalarType.builtins) : type.isBuiltin = true := by
  unfold ScalarType.builtins at h
  simp only [List.mem_cons, List.not_mem_nil, or_false] at h
  rcases h with rfl | rfl | rfl | rfl | rfl <;> decide

/-- A built schema has the five built-in scalars. -/
theorem Built.mem_builtin {schema : Schema} (h : schema.Built) {type : ScalarType}
    (hbuiltin : type ∈ ScalarType.builtins) : .scalar type ∈ schema.types.toList := by
  obtain ⟨builder, hreach, hbuild⟩ := h
  obtain ⟨registrations, hholds⟩ := hreach.holds
  obtain ⟨_, rfl⟩ := (SchemaBuilder.build_eq_ok_iff hholds.distinct).1 hbuild
  have hmem : TypeDef.scalar type ∈ builder.types.toList := by
    rw [hholds.types]
    exact List.mem_append_left _ (List.mem_map_of_mem hbuiltin)
  rw [← TypeDef.withCoercionOf_of_isBuiltin builder.coercions (isBuiltin_of_mem hbuiltin)]
  exact List.mem_map_of_mem hmem

/-- The name of a built-in scalar stands for that scalar. -/
theorem Built.find?_builtin {schema : Schema} (h : schema.Built) {type : ScalarType}
    (hbuiltin : type ∈ ScalarType.builtins) : schema.find? type.name = some (.scalar type) :=
  Declarations.find?_eq_some_iff.2 ⟨h.mem_builtin hbuiltin, rfl⟩

/-- A scalar with the name of a built-in one is that one. -/
theorem Built.builtin_of_isBuiltin {schema : Schema} (h : schema.Built) {type : ScalarType}
    (hmem : .scalar type ∈ schema.types.toList) (hname : type.isBuiltin = true) :
    type ∈ ScalarType.builtins := by
  have hfind : schema.find? type.name = some (.scalar type) :=
    Declarations.find?_eq_some_iff.2 ⟨hmem, rfl⟩
  have hnames : ∃ builtin ∈ ScalarType.builtins, builtin.name = type.name := by
    unfold ScalarType.isBuiltin ScalarType.builtinNames at hname
    simp only [List.contains_eq_mem, List.mem_cons, List.not_mem_nil, or_false,
      decide_eq_true_eq] at hname
    unfold ScalarType.builtins
    rcases hname with hname | hname | hname | hname | hname <;> simp [hname]
  obtain ⟨builtin, hbuiltin, hsame⟩ := hnames
  have hfound := h.find?_builtin hbuiltin
  rw [hsame, hfind] at hfound
  cases hfound
  exact hbuiltin

/-- What holds of every custom scalar. -/
def CustomScalars (schema : Schema) (P : ScalarType → Prop) : Prop :=
  ∀ scalar, .scalar scalar ∈ schema.types.toList → scalar.isBuiltin = false → P scalar

/-- What holds of the built-in scalars and of every custom one holds of all. -/
theorem Built.forall_scalar {schema : Schema} (h : schema.Built) {P : ScalarType → Prop}
    (hbuiltin : ∀ type ∈ ScalarType.builtins, P type) (hcustom : schema.CustomScalars P) :
    ∀ scalar, .scalar scalar ∈ schema.types.toList → P scalar := by
  intro scalar hmem
  cases hname : scalar.isBuiltin with
  | true => exact hbuiltin scalar (h.builtin_of_isBuiltin hmem hname)
  | false => exact hcustom scalar hmem hname

end Schema

/-! ## §2. A schema to look at.

A search with a filter: an enum, a custom scalar, and two input objects with defaults.

    enum Order { ASC DESC }
    scalar Date
    input Range { from: Int! = 1, to: Int }
    input Filter { tags: [String!], order: Order = ASC, range: Range!, since: Date, or: Filter }
    type Query { search(filter: Filter!, first: Int = 10): String }
-/

namespace Search

def order : EnumType where
  name := "Order"
  values := ⟨[("ASC", { name := "ASC" }), ("DESC", { name := "DESC" })], by decide⟩

def date : ScalarType := { name := "Date" }

def range : InputObjectType where
  name := "Range"
  fields := ⟨[{ name := "from", type := .nonNull (.named "Int"), defaultValue := some (.int 1) },
    { name := "to", type := .named "Int" }], by decide⟩

def filter : InputObjectType where
  name := "Filter"
  fields := ⟨[{ name := "tags", type := .list (.nonNull (.named "String")) },
    { name := "order", type := .named "Order", defaultValue := some (.enum "ASC") },
    { name := "range", type := .nonNull (.named "Range") },
    { name := "since", type := .named "Date" },
    { name := "or", type := .named "Filter" }], by decide⟩

def search : FieldDef where
  name := "search"
  type := .named "String"
  parameters := ⟨[{ name := "filter", type := .nonNull (.named "Filter") },
    { name := "first", type := .named "Int", defaultValue := some (.int 10) }], by decide⟩

def query : FieldedType where
  name := "Query"
  fields := ⟨[search], by decide⟩

/-- The types, without the built-in scalars. -/
def types : List TypeDef :=
  [.enum order, .scalar date, .inputObject range, .inputObject filter, .object query]

def schema : Schema where
  types := ⟨SchemaBuilder.builtinTypes.toList ++ types, by decide⟩
  queryType := "Query"
  mutationType := none
  subscriptionType := none

end Search

theorem SchemaBuilder.Reachable.addTypes (types : List TypeDef) :
    ∀ {builder builder' : SchemaBuilder}, builder.Reachable →
      types.foldlM SchemaBuilder.addType builder = .ok builder' → builder'.Reachable := by
  induction types with
  | nil =>
    intro builder builder' hreach h
    cases h
    exact hreach
  | cons type types ih =>
    intro builder builder' hreach h
    rw [List.foldlM_cons] at h
    obtain ⟨next, hnext, h⟩ := bind_eq_ok_iff.1 h
    exact ih (hreach.addType hnext) h

theorem Search.built : Search.schema.Built :=
  ⟨{ types := Search.schema.types, roots := {}, coercions := [] },
    SchemaBuilder.Reachable.addTypes Search.types .empty rfl, rfl⟩

/-- The only custom scalar is `Date`. -/
theorem Search.customScalars {P : ScalarType → Prop} (h : P Search.date) :
    Search.schema.CustomScalars P := by
  intro scalar hmem hcustom
  simp only [schema, types, SchemaBuilder.builtinTypes, ScalarType.builtins, List.map_cons,
    List.map_nil, List.cons_append, List.nil_append, List.mem_cons, List.not_mem_nil, or_false,
    TypeDef.scalar.injEq, reduceCtorEq, false_or] at hmem
  rcases hmem with rfl | rfl | rfl | rfl | rfl | rfl
  · cases hcustom
  · cases hcustom
  · cases hcustom
  · cases hcustom
  · cases hcustom
  · exact h

end GraphQLCheck
