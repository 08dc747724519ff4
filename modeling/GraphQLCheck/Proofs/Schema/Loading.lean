/-
  GraphQLCheck.Proofs.Schema.Loading
  ──────────────────────────────────
  Loading a text loses nothing of its type definitions, but for what an interface implements.

  Taking a definition in is putting its type together by hand and registering it.  So a loaded text leaves
  types with all that is written, and what they mention has to be defined; an interface that is said to
  implement another one is as good as one that is not.

  Main results:
    * `SchemaBuilder.load_eq_takeByHand`   — a definition is taken in as if by hand
    * `SchemaBuilder.build_of_dangling`    — with a name that is not defined there is no schema
    * `loading_equals_calls_by_hand`       — both, unless an interface is said to implement something
    * `Catalog.interface_loses_implements` — an interface that loses what it implements
-/
import GraphQLCheck.Proofs.Schema.Building
import GraphQLCheck.Proofs.Sdl.Described
import Mathlib

namespace GraphQLCheck

/-! ## §1. Loading. -/

namespace SchemaBuilder

/-- Take in the type that a definition says, put together by hand. -/
def takeByHand (builder : SchemaBuilder) (definition : Sdl.TypeDefinition) :
    Except BuildError SchemaBuilder := do
  builder.addType (← definition.byHand)

/-- **Taking a definition in is putting its type together by hand**, but for what an interface implements. -/
theorem define_eq_takeByHand (builder : SchemaBuilder) (definition : Sdl.TypeDefinition) :
    builder.define (.type definition) = builder.takeByHand definition.kept := by
  show (definition.declare >>= builder.addType) = definition.kept.byHand >>= builder.addType
  rw [definition.declare_eq_byHand]

/-- So it is wherever in a text the definition stands. -/
theorem load_eq_takeByHand (builder : SchemaBuilder) {text : String} {before after : List Sdl.Definition}
    {definition : Sdl.TypeDefinition}
    (hread : definitionsOf text = .ok (before ++ .type definition :: after)) :
    builder.load text = builder.defineAll before >>= fun builder =>
      builder.takeByHand definition.kept >>= (·.defineAll after) := by
  have hload : builder.load text = builder.defineAll (before ++ .type definition :: after) := by
    unfold load
    rw [hread]
    rfl
  rw [hload]
  unfold defineAll
  rw [List.foldlM_append]
  simp only [List.foldlM_cons, define_eq_takeByHand]

end SchemaBuilder

theorem exists_of_mapM_eq_ok {f : α → Except ε β} {items : List α} {item : α} (hmem : item ∈ items) :
    ∀ {results : List β}, items.mapM f = .ok results → ∃ result ∈ results, f item = .ok result := by
  induction items with
  | nil => cases hmem
  | cons first rest ih =>
    intro results h
    obtain ⟨result, results, hfirst, hrest, rfl⟩ := mapM_cons_eq_ok_iff.1 h
    rcases List.mem_cons.1 hmem with rfl | hmem
    · exact ⟨result, List.mem_cons_self .., hfirst⟩
    · obtain ⟨other, hother, hitem⟩ := ih hmem hrest
      exact ⟨other, List.mem_cons_of_mem _ hother, hitem⟩

/-- What a definition in a text stands for is among what the steps register that load the text. -/
theorem BuildStep.mem_registrationsOf_load {steps : List BuildStep} {text : String}
    {definitions : List Sdl.Definition} {definition : Sdl.TypeDefinition}
    {registrations : List Registration} (hload : .load text ∈ steps)
    (hread : SchemaBuilder.definitionsOf text = .ok definitions) (hmem : .type definition ∈ definitions)
    (h : registrationsOf steps = .ok registrations) :
    ∃ type, definition.declare = .ok type ∧ .type type ∈ registrations := by
  obtain ⟨all, hall, rfl⟩ := map_eq_ok_iff.1 h
  obtain ⟨own, hown, hstep⟩ := exists_of_mapM_eq_ok hload hall
  obtain ⟨read, hread', hstep⟩ := bind_eq_ok_iff.1 hstep
  rw [hread] at hread'
  cases hread'
  obtain ⟨parts, hparts, rfl⟩ := map_eq_ok_iff.1 hstep
  obtain ⟨part, hpart, hdefinition⟩ := exists_of_mapM_eq_ok hmem hparts
  obtain ⟨type, htype, rfl⟩ := map_eq_ok_iff.1 hdefinition
  have hregistered : Registration.type type ∈ parts.flatten :=
    List.mem_flatten.2 ⟨_, hpart, List.mem_singleton.2 rfl⟩
  exact ⟨type, htype, List.mem_flatten.2 ⟨_, hown, hregistered⟩⟩

/-- What a type implements, it mentions. -/
theorem TypeDef.exists_mentions_of_interfaces {type : TypeDef} {name : String} (h : name ∈ type.interfaces) :
    ∃ referrer, type.Mentions referrer name := by
  cases type with
  | interface type => exact ⟨_, .interfaceOfInterface h⟩
  | object type => exact ⟨_, .interfaceOfObject h⟩
  | enum | inputObject | scalar | union => cases h

namespace SchemaBuilder

/-- A builder with a type that mentions what is not defined has no schema; and if everything else fits, it
is a dangling reference that is reported. -/
theorem build_of_dangling {builder : SchemaBuilder} (hdistinct : (builder.coercions.map Prod.fst).Nodup)
    {type : TypeDef} (htype : type ∈ builder.types.toList) {referrer : Referrer} {name : String}
    (hmentions : type.Mentions referrer name) (hmissing : builder.types.contains name = false) :
    (∀ schema, builder.build ≠ .ok schema) ∧
      (builder.Fits → ∃ first missing, IsFirstDangling builder.types first missing ∧
        builder.build = .error (.undefinedReference first missing)) := by
  have hopen : ¬∀ type ∈ builder.types.toList, ∀ referrer name, type.Mentions referrer name →
      builder.types.contains name = true := by
    intro hall
    rw [hall type htype referrer name hmentions] at hmissing
    cases hmissing
  constructor
  · intro schema hbuild
    exact hopen ((build_eq_ok_iff hdistinct).1 hbuild).1.references
  · intro hfits
    cases hfirst : undefinedReference? builder.types with
    | none => exact absurd (undefinedReference?_eq_none_iff.1 hfirst) hopen
    | some reference =>
      obtain ⟨first, missing⟩ := reference
      have hdangling := undefinedReference?_eq_some_iff.1 hfirst
      exact ⟨first, missing, hdangling, (build_eq_undefinedReference_iff hdistinct).2 ⟨hfits, hdangling⟩⟩

end SchemaBuilder

/-- **Loading a definition is taking it in by hand**, unless it is that of an interface which is said to
implement another one.  So it is wherever the definition stands in a text, with the same error or the same
type.  The calls that it says come to the type with exactly the parts that are written, and fail exactly if
a name is written twice.  After a text with the definition has been loaded, there is a type with all that
the definition writes; if a name after `implements` is not defined in the end, there is no schema, and if
everything else fits, a dangling reference is the error. -/
theorem loading_equals_calls_by_hand (definition : Sdl.TypeDefinition)
    (hkept : ∀ names fields, definition.body = .interface names fields → names = []) :
    (∀ (builder : SchemaBuilder) (text : String) (before after : List Sdl.Definition),
      SchemaBuilder.definitionsOf text = .ok (before ++ .type definition :: after) →
        builder.load text = builder.defineAll before >>= fun builder =>
          builder.takeByHand definition >>= (·.defineAll after)) ∧
    (∀ type, definition.byHand = .ok type ↔ definition.Describes type) ∧
    ((∃ type, definition.byHand = .ok type) ↔ definition.body.IsDistinct) ∧
    (∀ value ∈ definition.body.values, ∀ reason,
      value.written.deprecationReason = some reason ↔ Sdl.Deprecates value.directives reason) ∧
    ∀ (steps : List BuildStep) (text : String) (definitions : List Sdl.Definition) (final : SchemaBuilder),
      .load text ∈ steps → SchemaBuilder.definitionsOf text = .ok definitions →
      .type definition ∈ definitions → SchemaBuilder.empty.runAll steps = .ok final →
        (∃ type ∈ final.types.toList, definition.Describes type) ∧
        ∀ name ∈ definition.body.interfaces, final.types.contains name = false →
          (∀ schema, final.build ≠ .ok schema) ∧
          (final.Fits → ∃ referrer missing, SchemaBuilder.IsFirstDangling final.types referrer missing ∧
            final.build = .error (.undefinedReference referrer missing)) := by
  have hself : definition.kept = definition := Sdl.TypeDefinition.kept_eq_self hkept
  refine ⟨?_, definition.byHand_eq_ok_iff, definition.exists_byHand_iff,
    fun _ _ _ => Sdl.deprecationReason?_eq_some_iff, ?_⟩
  · intro builder text before after hread
    rw [builder.load_eq_takeByHand hread, hself]
  · intro steps text definitions final hload hread hmem hrun
    obtain ⟨registrations, hregistrations, hholds⟩ := SchemaBuilder.holds_of_runAll hrun
    obtain ⟨type, hdeclare, hregistered⟩ :=
      BuildStep.mem_registrationsOf_load hload hread hmem hregistrations
    have htype : type ∈ final.types.toList := hholds.mem_types hregistered
    have hdescribes : definition.Describes type := by
      rw [definition.declare_eq_byHand, hself] at hdeclare
      exact (definition.byHand_eq_ok_iff type).1 hdeclare
    refine ⟨⟨type, htype, hdescribes⟩, ?_⟩
    intro name hname hmissing
    rw [← hdescribes.interfaces] at hname
    obtain ⟨referrer, hmentions⟩ := TypeDef.exists_mentions_of_interfaces hname
    exact SchemaBuilder.build_of_dangling hholds.distinct htype hmentions hmissing

/-! ## §2. A catalog.

    type Query implements Entity { id: ID }

    interface Node implements Entity { id: ID }
    type Query { node: Node }
-/

namespace Catalog

/-- A field without parameters. -/
def field (name type : String) : FieldDef := { name, type := .named type }

def built (types : List TypeDef) (h : ((SchemaBuilder.builtinTypes.toList ++ types).map TypeDef.name).Nodup) :
    SchemaBuilder :=
  { types := ⟨SchemaBuilder.builtinTypes.toList ++ types, h⟩, roots := {}, coercions := [] }

def objectText : String := "type Query implements Entity \x7b id: ID \x7d"

def object : Sdl.TypeDefinition :=
  { name := "Query", body := .object ["Entity"] [{ name := "id", type := .named "ID" }] }

def objectType : FieldedType where
  name := "Query"
  interfaces := ⟨["Entity"], by decide⟩
  fields := ⟨[field "id" "ID"], by decide⟩

theorem read_objectText : SchemaBuilder.definitionsOf objectText = .ok [.type object] := by
  unfold objectText object
  cbv

/-- An object type keeps what it implements, and without it there is no schema. -/
theorem object_keeps_implements :
    SchemaBuilder.empty.load objectText = .ok (built [.object objectType] (by decide)) ∧
    ∀ schema, (built [.object objectType] (by decide)).build ≠ .ok schema := by
  have hload : SchemaBuilder.empty.load objectText = .ok (built [.object objectType] (by decide)) := by
    unfold SchemaBuilder.load
    rw [read_objectText]
    rfl
  have hrun : SchemaBuilder.empty.runAll [.load objectText] =
      .ok (built [.object objectType] (by decide)) := by
    unfold SchemaBuilder.runAll
    rw [List.foldlM_cons]
    exact bind_eq_ok_iff.2 ⟨_, hload, rfl⟩
  have hkept : ∀ names fields, object.body = .interface names fields → names = [] := nofun
  obtain ⟨_, _, _, _, hloaded⟩ := loading_equals_calls_by_hand object hkept
  have htype := hloaded [.load objectText] objectText _ _ (List.mem_singleton.2 rfl) read_objectText
    (List.mem_singleton.2 rfl) hrun
  exact ⟨hload, (htype.2 "Entity" (List.mem_singleton.2 rfl) (by decide)).1⟩

def text : String := "interface Node implements Entity \x7b id: ID \x7d type Query \x7b node: Node \x7d"

def node : Sdl.TypeDefinition :=
  { name := "Node", body := .interface ["Entity"] [{ name := "id", type := .named "ID" }] }

def query : Sdl.TypeDefinition :=
  { name := "Query", body := .object [] [{ name := "node", type := .named "Node" }] }

def queryType : FieldedType where
  name := "Query"
  fields := ⟨[field "node" "Node"], by decide⟩

/-- The interface as it is loaded. -/
def nodeType : FieldedType where
  name := "Node"
  fields := ⟨[field "id" "ID"], by decide⟩

/-- The interface as it is written. -/
def writtenNodeType : FieldedType :=
  { nodeType with interfaces := ⟨["Entity"], by decide⟩ }

theorem read_text : SchemaBuilder.definitionsOf text = .ok [.type node, .type query] := by
  unfold text node query
  cbv

/-- **An interface loses what it implements.**  Its definition says that it implements `Entity`, which is
not defined.  Put together by hand, it does, and that is the error.  Loaded, it implements nothing, and there
is a schema. -/
theorem interface_loses_implements :
    (SchemaBuilder.definitionsOf text = .ok [.type node, .type query] ∧
      node.byHand = .ok (.interface writtenNodeType)) ∧
    (∃ byHand, (SchemaBuilder.empty.takeByHand node >>= (·.takeByHand query)) = .ok byHand ∧
      byHand.build = .error (.undefinedReference (.interface "Node") "Entity")) ∧
    (∃ loaded schema, SchemaBuilder.empty.load text = .ok loaded ∧ loaded.build = .ok schema ∧
      schema.find? "Node" = some (.interface nodeType) ∧ (TypeDef.interface nodeType).interfaces = []) ∧
    ¬∀ (definition : Sdl.TypeDefinition) (builder : SchemaBuilder) (text : String)
      (before after : List Sdl.Definition),
        SchemaBuilder.definitionsOf text = .ok (before ++ .type definition :: after) →
          builder.load text = builder.defineAll before >>= fun builder =>
            builder.takeByHand definition >>= (·.defineAll after) := by
  have hload : SchemaBuilder.empty.load text =
      .ok (built [.interface nodeType, .object queryType] (by decide)) := by
    unfold SchemaBuilder.load
    rw [read_text]
    rfl
  have hbyHand : (SchemaBuilder.empty.takeByHand node >>= (·.takeByHand query)) =
      .ok (built [.interface writtenNodeType, .object queryType] (by decide)) := rfl
  refine ⟨⟨read_text, rfl⟩, ⟨_, hbyHand, rfl⟩, ⟨_, ?_, hload, ?_⟩, ?_⟩
  · exact { types := (built [.interface nodeType, .object queryType] (by decide)).types
            queryType := "Query", mutationType := none, subscriptionType := none }
  · exact ⟨rfl, rfl, rfl⟩
  · intro hall
    have hsame := hall node .empty text [] [.type query] read_text
    rw [hload] at hsame
    have hbuilt := Except.ok.inj (hsame.trans hbyHand)
    cases congrArg (fun builder => (builder.types.toList.flatMap TypeDef.interfaces).length) hbuilt

end Catalog

end GraphQLCheck
