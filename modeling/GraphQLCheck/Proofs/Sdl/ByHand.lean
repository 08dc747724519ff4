/-
  GraphQLCheck.Proofs.Sdl.ByHand
  ──────────────────────────────
  Loading a definition makes the calls that it says.

  A type can be put together by hand: it starts with nothing but a name, and each call adds a part.  A
  definition says which calls these are, in which order: its description, then its interfaces, fields,
  values and members.  Each kind of definition is loaded in a way of its own; all come to these calls, with
  one exception: what an interface is said to implement is left out.

  Main results:
    * `Sdl.TypeDefinition.Describes`          — the type has exactly the parts that are written
    * `Sdl.TypeDefinition.byHand`             — the calls that a definition says
    * `Sdl.TypeDefinition.declare_eq_byHand`  — loading makes these calls
    * `Sdl.deprecationReason?_eq_some_iff`    — which reason a deprecation has
-/
import GraphQLCheck.Sdl.Basic

namespace GraphQLCheck

/-! ## §1. The parts of types, and of definitions. -/

/-- A field, as its name, its type, its description and its parameters. -/
def FieldDef.parts (field : FieldDef) : String × TypeRef × Option String × List InputDef :=
  (field.name, field.type, field.description, field.parameters.toList)

namespace TypeDef

def interfaces : TypeDef → List String
  | .interface t => t.interfaces.toList
  | .object t => t.interfaces.toList
  | _ => []

/-- The values of an enum, by key. -/
def values : TypeDef → List (String × EnumValue)
  | .enum t => t.values.toList
  | _ => []

def members : TypeDef → List String
  | .union t => t.members.toList
  | _ => []

end TypeDef

namespace Sdl

namespace TypeBody

@[simp] def kind : TypeBody → TypeKind
  | .enum _ => .enum
  | .inputObject _ => .inputObject
  | .interface _ _ => .interface
  | .object _ _ => .object
  | .scalar => .scalar
  | .union _ => .union

/-- The names after `implements`. -/
@[simp] def interfaces : TypeBody → List String
  | .interface names _ => names
  | .object names _ => names
  | _ => []

@[simp] def fields : TypeBody → List FieldDefinition
  | .interface _ written => written
  | .object _ written => written
  | _ => []

@[simp] def inputFields : TypeBody → List InputDefinition
  | .inputObject written => written
  | _ => []

@[simp] def values : TypeBody → List EnumValueDefinition
  | .enum written => written
  | _ => []

@[simp] def members : TypeBody → List String
  | .union names => names
  | _ => []

end TypeBody

/-- A parameter or an input field with all that is written of it. -/
def InputDefinition.written (definition : InputDefinition) : InputDef where
  name := definition.name
  type := .ofExpr definition.type
  defaultValue := definition.defaultValue
  description := definition.description

/-- A value with all that is written of it. -/
def EnumValueDefinition.written (definition : EnumValueDefinition) : EnumValue where
  name := definition.name
  description := definition.description
  deprecationReason := deprecationReason? definition.directives

/-- The parts of a field that are written. -/
def FieldDefinition.parts (definition : FieldDefinition) :
    String × TypeRef × Option String × List InputDef :=
  (definition.name, .ofExpr definition.type, definition.description,
    definition.parameters.map InputDefinition.written)

/-- A type has exactly the parts that a definition writes, in the same order. -/
structure TypeDefinition.Describes (definition : TypeDefinition) (type : TypeDef) : Prop where
  kind : type.kind = definition.body.kind
  name : type.name = definition.name
  description : type.description = definition.description
  interfaces : type.interfaces = definition.body.interfaces
  fields : type.fields.map FieldDef.parts = definition.body.fields.map FieldDefinition.parts
  inputFields : type.inputFields = definition.body.inputFields.map InputDefinition.written
  values : type.values = definition.body.values.map fun value => (value.name, value.written)
  members : type.members = definition.body.members
  coercion : ∀ scalar, type = .scalar scalar → scalar.coercion = anyScalar

/-- An argument gives no text as `reason`. -/
def GivesNoReason (argument : String × Literal) : Prop :=
  argument.1 = "reason" → argument.2.text? = none

/-- The reason for a deprecation is the first text that the first directive `@deprecated` gives as
`reason`, or the usual one if it gives none. -/
def Deprecates (directives : List Directive) (reason : String) : Prop :=
  ∃ before deprecated after, directives = before ++ deprecated :: after ∧
    (∀ directive ∈ before, directive.name ≠ "deprecated") ∧ deprecated.name = "deprecated" ∧
    ((∃ earlier text later, deprecated.arguments = earlier ++ ("reason", text) :: later ∧
        text.text? = some reason ∧ ∀ argument ∈ earlier, GivesNoReason argument) ∨
      ((∀ argument ∈ deprecated.arguments, GivesNoReason argument) ∧ reason = defaultDeprecationReason))

/-- The first text that some arguments give as `reason`. -/
def reasonGiven? (arguments : List (String × Literal)) : Option String :=
  (arguments.filterMap fun (name, value) => if name = "reason" then value.text? else none).head?

theorem reasonGiven?_eq_none_iff {arguments : List (String × Literal)} :
    reasonGiven? arguments = none ↔ ∀ argument ∈ arguments, GivesNoReason argument := by
  unfold reasonGiven? GivesNoReason
  rw [List.head?_filterMap, List.findSome?_eq_none_iff]
  exact forall₂_congr fun _ _ => ite_eq_right_iff

theorem reasonGiven?_eq_some_iff {arguments : List (String × Literal)} {reason : String} :
    reasonGiven? arguments = some reason ↔
      ∃ earlier text later, arguments = earlier ++ ("reason", text) :: later ∧
        text.text? = some reason ∧ ∀ argument ∈ earlier, GivesNoReason argument := by
  unfold reasonGiven?
  rw [List.head?_filterMap, List.findSome?_eq_some_iff]
  simp only [← List.findSome?_eq_none_iff, ← List.head?_filterMap]
  constructor
  · rintro ⟨earlier, ⟨name, text⟩, later, hsplit, htext, hearlier⟩
    simp only at htext
    split at htext
    next hname =>
      subst hname
      exact ⟨earlier, text, later, hsplit, htext, reasonGiven?_eq_none_iff.1 hearlier⟩
    next => cases htext
  · rintro ⟨earlier, text, later, hsplit, htext, hearlier⟩
    exact ⟨earlier, ("reason", text), later, hsplit, htext, reasonGiven?_eq_none_iff.2 hearlier⟩

theorem deprecationReason?_eq_some_iff {directives : List Directive} {reason : String} :
    deprecationReason? directives = some reason ↔ Deprecates directives reason := by
  have hreason : ∀ arguments : List (String × Literal),
      (reasonGiven? arguments).getD defaultDeprecationReason = reason ↔
        reasonGiven? arguments = some reason ∨
          (reasonGiven? arguments = none ∧ reason = defaultDeprecationReason) := by
    intro arguments
    cases reasonGiven? arguments with
    | none => simp [eq_comm]
    | some text => simp
  show ((directives.find? (·.name == "deprecated")).bind fun deprecated =>
    some ((reasonGiven? deprecated.arguments).getD defaultDeprecationReason)) = some reason ↔ _
  rw [Option.bind_eq_some_iff]
  simp only [List.find?_eq_some_iff_append, Option.some.injEq, hreason, reasonGiven?_eq_some_iff,
    reasonGiven?_eq_none_iff, beq_iff_eq, Bool.not_eq_true', beq_eq_false_iff_ne]
  constructor
  · rintro ⟨deprecated, ⟨hname, before, after, hsplit, hbefore⟩, hreason⟩
    exact ⟨before, deprecated, after, hsplit, hbefore, hname, hreason⟩
  · rintro ⟨before, deprecated, after, hsplit, hbefore, hname, hreason⟩
    exact ⟨deprecated, ⟨hname, before, after, hsplit, hbefore⟩, hreason⟩

end Sdl

/-! ## §2. Types put together by hand. -/

/-- A call that adds a part to a type. -/
inductive TypeCall where
  | describe (text : String)
  | implement (interfaceName : String)
  | addField (field : FieldDef)
  | addInputField (field : InputDef)
  | addValue (value : EnumValue)
  | addMember (memberName : String)

namespace TypeDef

/-- A type with nothing but its name. -/
def blank : TypeKind → String → TypeDef
  | .enum, name => .enum { name }
  | .inputObject, name => .inputObject { name }
  | .interface, name => .interface { name }
  | .object, name => .object { name }
  | .scalar, name => .scalar { name }
  | .union, name => .union { name }

def describe (text : String) : TypeDef → TypeDef
  | .enum t => .enum { t with description := some text }
  | .inputObject t => .inputObject { t with description := some text }
  | .interface t => .interface { t with description := some text }
  | .object t => .object { t with description := some text }
  | .scalar t => .scalar { t with description := some text }
  | .union t => .union { t with description := some text }

/-- Make a call.  Types of a kind that the call is not meant for stay as they are. -/
def call : TypeDef → TypeCall → Except BuildError TypeDef
  | type, .describe text => .ok (type.describe text)
  | .interface t, .implement interfaceName => .interface <$> t.implement interfaceName
  | .object t, .implement interfaceName => .object <$> t.implement interfaceName
  | .interface t, .addField field => .interface <$> t.addField field
  | .object t, .addField field => .object <$> t.addField field
  | .inputObject t, .addInputField field => .inputObject <$> t.addField field
  | .enum t, .addValue value => .enum <$> t.addValue value
  | .union t, .addMember memberName => .union <$> t.addMember memberName
  | type, _ => .ok type

/-- Make calls in a row.  One that has failed to get its part fails. -/
def callAll (type : TypeDef) (calls : List (Except BuildError TypeCall)) : Except BuildError TypeDef :=
  calls.foldlM (fun type next => do type.call (← next)) type

end TypeDef

namespace Sdl

/-- A field put together by hand: its parameters are added one after the other. -/
def FieldDefinition.byHand (definition : FieldDefinition) : Except BuildError FieldDef :=
  (definition.parameters.map InputDefinition.written).foldlM FieldDef.addParameter
    { name := definition.name, type := .ofExpr definition.type, description := definition.description }

/-- The calls for the parts of a definition, in source order.  One that adds a field fails if the field
cannot be put together. -/
def TypeBody.calls (body : TypeBody) : List (Except BuildError TypeCall) :=
  body.interfaces.map (fun name => .ok (.implement name)) ++
    body.fields.map (fun field => .addField <$> field.byHand) ++
    body.inputFields.map (fun field => .ok (.addInputField field.written)) ++
    body.values.map (fun value => .ok (.addValue value.written)) ++
    body.members.map (fun name => .ok (.addMember name))

namespace TypeDefinition

/-- The type that a definition says, put together by hand: it is named, it is described, and its parts are
added in source order. -/
def byHand (definition : TypeDefinition) : Except BuildError TypeDef :=
  (TypeDef.blank definition.body.kind definition.name).callAll
    (definition.description.toList.map (fun text => .ok (.describe text)) ++ definition.body.calls)

/-- A definition as it is taken in: what an interface is said to implement is left out. -/
def kept (definition : TypeDefinition) : TypeDefinition :=
  match definition.body with
  | .interface _ fields => { definition with body := .interface [] fields }
  | _ => definition

end TypeDefinition

end Sdl

namespace TypeDef

theorem callAll_append (type : TypeDef) (calls later : List (Except BuildError TypeCall)) :
    type.callAll (calls ++ later) = type.callAll calls >>= (·.callAll later) :=
  List.foldlM_append

/-- Calls in a row that each take a step on what a type is made of take these steps in a row. -/
theorem callAll_map (wrap : β → TypeDef) (step : β → α → Except BuildError β)
    (next : α → Except BuildError TypeCall)
    (h : ∀ state item, (do (wrap state).call (← next item)) = wrap <$> step state item) (items : List α) :
    ∀ state, (wrap state).callAll (items.map next) = wrap <$> items.foldlM step state := by
  induction items with
  | nil => exact fun _ => rfl
  | cons item items ih =>
    intro state
    unfold callAll
    rw [List.map_cons, List.foldlM_cons, List.foldlM_cons, h]
    cases step state item with
    | error error => rfl
    | ok state => exact ih state

end TypeDef

namespace Sdl

theorem FieldDefinition.byHand_eq_declare (definition : FieldDefinition) :
    definition.byHand = definition.declare := by
  unfold byHand declare
  rw [List.foldlM_map]
  rfl

namespace TypeDefinition

/-- Calls that implement interfaces and then add fields do the same to what an object type or an interface
is made of. -/
theorem callAll_fielded (wrap : FieldedType → TypeDef)
    (himplement : ∀ type name, (wrap type).call (.implement name) = wrap <$> type.implement name)
    (haddField : ∀ type field, (wrap type).call (.addField field) = wrap <$> type.addField field)
    (type : FieldedType) (interfaces : List String) (fields : List FieldDefinition) :
    (wrap type).callAll (interfaces.map (fun name => .ok (.implement name)) ++
        fields.map fun field => .addField <$> field.byHand) =
      wrap <$> (interfaces.foldlM (·.implement ·) type >>= (addFields · fields)) := by
  have hfields : ∀ type : FieldedType,
      (wrap type).callAll (fields.map fun field => .addField <$> field.byHand) =
        wrap <$> addFields type fields := by
    refine TypeDef.callAll_map wrap _ _ (fun type field => ?_) fields
    rw [field.byHand_eq_declare]
    cases field.declare with
    | error error => rfl
    | ok field => exact haddField type field
  rw [TypeDef.callAll_append, TypeDef.callAll_map wrap (·.implement ·) _ himplement]
  cases interfaces.foldlM (·.implement ·) type with
  | error error => rfl
  | ok type => exact hfields type

section ByHand

/-! What the calls come to, for each kind of definition. -/

variable (name : String) (description : Option String)

/-- A type is described before anything else, and only the calls for its kind follow. -/
theorem byHand_eq_callAll {body : TypeBody} {calls : List (Except BuildError TypeCall)}
    (h : body.calls = calls) : byHand ⟨name, description, body⟩ = (match description with
      | some text => (TypeDef.blank body.kind name).describe text
      | none => TypeDef.blank body.kind name).callAll calls := by
  subst h
  cases description <;> rfl

theorem byHand_enum (values : List EnumValueDefinition) :
    byHand ⟨name, description, .enum values⟩ = .enum <$>
      values.foldlM (fun type value => type.addValue value.written) { name, description } := by
  have hcalls : (TypeBody.enum values).calls = values.map fun value => .ok (.addValue value.written) := by
    simp [TypeBody.calls]
  rw [byHand_eq_callAll name description hcalls]
  cases description <;> exact TypeDef.callAll_map .enum _ _ (fun _ _ => rfl) values _

theorem byHand_inputObject (fields : List InputDefinition) :
    byHand ⟨name, description, .inputObject fields⟩ = .inputObject <$>
      fields.foldlM (fun type field => type.addField field.written) { name, description } := by
  have hcalls : (TypeBody.inputObject fields).calls =
      fields.map fun field => .ok (.addInputField field.written) := by
    simp [TypeBody.calls]
  rw [byHand_eq_callAll name description hcalls]
  cases description <;> exact TypeDef.callAll_map .inputObject _ _ (fun _ _ => rfl) fields _

theorem byHand_interface (interfaces : List String) (fields : List FieldDefinition) :
    byHand ⟨name, description, .interface interfaces fields⟩ = .interface <$>
      (interfaces.foldlM (·.implement ·) { name, description } >>= (addFields · fields)) := by
  have hcalls : (TypeBody.interface interfaces fields).calls =
      interfaces.map (fun name => .ok (.implement name)) ++
        fields.map fun field => .addField <$> field.byHand := by
    simp [TypeBody.calls]
  rw [byHand_eq_callAll name description hcalls]
  cases description <;>
    exact callAll_fielded .interface (fun _ _ => rfl) (fun _ _ => rfl) _ interfaces fields

theorem byHand_object (interfaces : List String) (fields : List FieldDefinition) :
    byHand ⟨name, description, .object interfaces fields⟩ = .object <$>
      (interfaces.foldlM (·.implement ·) { name, description } >>= (addFields · fields)) := by
  have hcalls : (TypeBody.object interfaces fields).calls =
      interfaces.map (fun name => .ok (.implement name)) ++
        fields.map fun field => .addField <$> field.byHand := by
    simp [TypeBody.calls]
  rw [byHand_eq_callAll name description hcalls]
  cases description <;>
    exact callAll_fielded .object (fun _ _ => rfl) (fun _ _ => rfl) _ interfaces fields

theorem byHand_scalar : byHand ⟨name, description, .scalar⟩ = .ok (.scalar { name, description }) := by
  cases description <;> rfl

theorem byHand_union (members : List String) :
    byHand ⟨name, description, .union members⟩ = .union <$>
      members.foldlM (·.addMember ·) { name, description } := by
  have hcalls : (TypeBody.union members).calls = members.map fun name => .ok (.addMember name) := by
    simp [TypeBody.calls]
  rw [byHand_eq_callAll name description hcalls]
  cases description <;> exact TypeDef.callAll_map .union _ _ (fun _ _ => rfl) members _

end ByHand

/-- **Loading makes the calls that a definition says**, but for what an interface implements. -/
theorem declare_eq_byHand (definition : TypeDefinition) : definition.declare = definition.kept.byHand := by
  obtain ⟨name, description, body⟩ := definition
  cases body with
  | enum values => exact (byHand_enum name description values).symm
  | inputObject fields => exact (byHand_inputObject name description fields).symm
  | interface interfaces fields => exact (byHand_interface name description [] fields).symm
  | object interfaces fields =>
    refine Eq.trans ?_ (byHand_object name description interfaces fields).symm
    show (interfaces.foldlM (·.implement ·) _ >>= fun type => TypeDef.object <$> addFields type fields) = _
    cases interfaces.foldlM (·.implement ·) ({ name, description } : FieldedType) <;> rfl
  | scalar => exact (byHand_scalar name description).symm
  | union members => exact (byHand_union name description members).symm

end TypeDefinition

end Sdl

end GraphQLCheck
