/-
  GraphQLCheck.Proofs.Schema.Scalars
  ──────────────────────────────────
  What coercions of scalars may be relied on for, and that those defined here are.

      ScalarType.NullFree        — null is the value of nothing but null
      ScalarType.LiteralNullFree — the same, of literals alone
      ScalarType.ReadsAlike      — a literal and its runtime value are read as the same
      ScalarType.Settled         — what is read is read as itself

  The built-in scalars are the first three of these, and all but `ID` are the last; a scalar without a
  coercion of its own is all of them.  Of a custom scalar each is an assumption; in a built schema no other
  scalar needs one.  What a built-in scalar can yield at all is `ScalarType.BuiltinValue`.
-/
import GraphQLCheck.Proofs.Schema.Built
import GraphQLCheck.Proofs.Value.Variables

namespace GraphQLCheck

namespace ScalarType

/-! ## §1. Scalars without null. -/

/-- Null is the value of no literal but null, as long as numbers are finite. -/
def LiteralNullFree (type : ScalarType) : Prop :=
  ∀ literal : Literal, literal.isNull = false → literal.isFinite = true →
    type.parseLiteral literal ≠ some .null

/-- Null is the value of no runtime value but null, as long as integers have 64 bits. -/
def ValueNullFree (type : ScalarType) : Prop :=
  ∀ value : Json, value.isNull = false → value.isSized = true → type.parseValue value ≠ some .null

/-- Null is the value of nothing but null. -/
def NullFree (type : ScalarType) : Prop := type.LiteralNullFree ∧ type.ValueNullFree

theorem int32?_ne_null (i : Int) : int32? i ≠ some .null := by
  unfold int32?
  split <;> simp [Json.ofInt]

theorem ofDouble_ne_null {x : Double} (h : ∃ y, x = .finite y) : Json.ofDouble x ≠ .null := by
  obtain ⟨y, rfl⟩ := h
  simp [Json.ofDouble]

theorem literalNullFree_of_builtin {type : ScalarType} (h : type ∈ builtins) :
    type.LiteralNullFree := by
  intro literal hnull hfinite
  unfold builtins at h
  simp only [List.mem_cons, List.not_mem_nil, or_false] at h
  rcases h with rfl | rfl | rfl | rfl | rfl
  · cases literal <;> simp [parseLiteral, booleanScalar]
  · -- a number is read as a double, which is null unless it is finite
    cases literal with
    | int i =>
      have hne := ofDouble_ne_null (Double.ofInt_eq_finite (natAbs_lt_of_fitsInt64 hfinite))
      simpa [parseLiteral, floatScalar] using hne
    | float x =>
      have hne := ofDouble_ne_null (Double.eq_finite_of_isSome hfinite)
      simpa [parseLiteral, floatScalar] using hne
    | _ => simp [parseLiteral, floatScalar]
  · cases literal <;> simp [parseLiteral, idScalar, Json.ofInt]
  · cases literal with
    | int i => exact int32?_ne_null i
    | _ => simp [parseLiteral, intScalar]
  · cases literal <;> simp [parseLiteral, stringScalar]

theorem valueNullFree_of_builtin {type : ScalarType} (h : type ∈ builtins) :
    type.ValueNullFree := by
  intro value hnull hsized
  unfold parseValue
  rw [hnull]
  unfold builtins at h
  simp only [List.mem_cons, List.not_mem_nil, or_false] at h
  rcases h with rfl | rfl | rfl | rfl | rfl
  · cases value <;> simp [booleanScalar, parseBoolean]
  · cases value with
    | number n =>
      have hne := ofDouble_ne_null (JsonNumber.toDouble_eq_finite hsized)
      simpa [floatScalar, parseDouble] using hne
    | _ => simp [floatScalar, parseDouble]
  · cases value with
    | number n => cases n <;> simp [idScalar, Json.ofInt]
    | _ => simp [idScalar]
  · cases value with
    | number n =>
      cases n with
      | integer i => exact int32?_ne_null i
      | float x =>
        intro hnull
        obtain ⟨i, _, hi⟩ := Option.bind_eq_some_iff.1 hnull
        exact int32?_ne_null i hi
    | _ => simp [intScalar, parseInt32]
  · cases value <;> simp [stringScalar]

theorem nullFree_of_builtin {type : ScalarType} (h : type ∈ builtins) : type.NullFree :=
  ⟨literalNullFree_of_builtin h, valueNullFree_of_builtin h⟩

/-- A scalar without a coercion of its own keeps every value as it is. -/
theorem nullFree_of_anyScalar {type : ScalarType} (h : type.coercion = anyScalar) :
    type.NullFree := by
  constructor
  · intro literal hnull hfinite
    unfold parseLiteral
    rw [h]
    exact Literal.toJson?_ne_null hfinite hnull
  · intro value hnull _ hvalue
    unfold parseValue at hvalue
    rw [hnull, h] at hvalue
    cases hvalue
    cases hnull

/-! ## §2. Scalars that read literals and runtime values alike. -/

/-- What a literal without variables is read as, its runtime value is read as too. -/
def ReadsAlike (type : ScalarType) : Prop :=
  ∀ (literal : Literal) (value : Json), literal.variables = [] → literal.isFinite = true →
    type.parseLiteral literal = some value →
      ∃ sent, literal.toJson? = some sent ∧ type.parseValue sent = some value

theorem readsAlike_of_builtin {type : ScalarType} (h : type ∈ builtins) : type.ReadsAlike := by
  intro literal value _ hfinite hread
  unfold builtins at h
  simp only [List.mem_cons, List.not_mem_nil, or_false] at h
  rcases h with rfl | rfl | rfl | rfl | rfl
  · cases literal with
    | boolean b => exact ⟨.bool b, rfl, hread⟩
    | _ => cases hread
  · cases literal with
    | int i => exact ⟨.ofInt i, rfl, hread⟩
    | float x =>
      obtain ⟨y, rfl⟩ := Double.eq_finite_of_isSome hfinite
      exact ⟨.number (.float y), rfl, hread⟩
    | _ => cases hread
  · cases literal with
    | int i => exact ⟨.ofInt i, rfl, hread⟩
    | string s => exact ⟨.string s, rfl, hread⟩
    | _ => cases hread
  · cases literal with
    | int i => exact ⟨.ofInt i, rfl, hread⟩
    | _ => cases hread
  · cases literal with
    | string s => exact ⟨.string s, rfl, hread⟩
    | _ => cases hread

/-- A scalar without a coercion of its own takes the runtime value of a literal for the literal. -/
theorem readsAlike_of_anyScalar {type : ScalarType} (h : type.coercion = anyScalar) :
    type.ReadsAlike := by
  intro literal value _ _ hread
  unfold parseLiteral at hread
  rw [h] at hread
  refine ⟨value, hread, ?_⟩
  unfold parseValue
  rw [h]
  cases hnull : value.isNull with
  | true =>
    rw [Json.isNull_iff.1 hnull]
    rfl
  | false => rfl

/-! ## §3. What scalars yield. -/

/-- What the scalar reads some runtime value or some literal as. -/
def Yields (type : ScalarType) (value : Json) : Prop :=
  (∃ sent, type.parseValue sent = some value) ∨ ∃ literal, type.parseLiteral literal = some value

/-- The values of the built-in scalars. -/
inductive BuiltinValue : ScalarType → Json → Prop where
  | boolean (b : Bool) : BuiltinValue { name := "Boolean", coercion := booleanScalar } (.bool b)
  | float (x : FiniteDouble) :
      BuiltinValue { name := "Float", coercion := floatScalar } (.number (.float x))
  | textId (s : String) : BuiltinValue { name := "ID", coercion := idScalar } (.string s)
  | integerId (i : Int) : BuiltinValue { name := "ID", coercion := idScalar } (.ofInt i)
  | int {i : Int} : fitsInt32 i = true →
      BuiltinValue { name := "Int", coercion := intScalar } (.ofInt i)
  | string (s : String) : BuiltinValue { name := "String", coercion := stringScalar } (.string s)

variable {type : ScalarType} {value : Json}

theorem eq_of_int32? {i : Int} (h : int32? i = some value) : fitsInt32 i = true ∧ value = .ofInt i := by
  unfold int32? at h
  split at h
  next hfits =>
    cases h
    exact ⟨hfits, rfl⟩
  next => cases h

/-- A double has null for its runtime value unless it is finite. -/
theorem eq_number_of_ofDouble {x : Double} (h : Json.ofDouble x = value) (hnull : value ≠ .null) :
    ∃ y, value = .number (.float y) := by
  cases x with
  | finite y => exact ⟨y, h.symm⟩
  | infinite negative => exact absurd h.symm hnull
  | notANumber => exact absurd h.symm hnull

/-- What a built-in scalar yields is null or one of its values. -/
theorem builtinValue_of_yields (h : type ∈ builtins) (hyields : type.Yields value) (hnull : value ≠ .null) :
    type.BuiltinValue value := by
  unfold builtins at h
  simp only [List.mem_cons, List.not_mem_nil, or_false] at h
  rcases hyields with ⟨sent, hread⟩ | ⟨literal, hread⟩
  · unfold parseValue at hread
    split at hread
    next => exact absurd (Option.some.inj hread).symm hnull
    next =>
      rcases h with rfl | rfl | rfl | rfl | rfl
      · cases sent with
        | bool b =>
          cases hread
          exact .boolean b
        | _ => cases hread
      · cases sent with
        | number n =>
          obtain ⟨y, rfl⟩ := eq_number_of_ofDouble (Option.some.inj hread) hnull
          exact .float y
        | _ => cases hread
      · cases sent with
        | string s =>
          cases hread
          exact .textId _
        | number n =>
          cases n with
          | integer i =>
            cases hread
            exact .integerId i
          | float x => cases hread
        | _ => cases hread
      · cases sent with
        | number n =>
          cases n with
          | integer i =>
            obtain ⟨hfits, rfl⟩ := eq_of_int32? hread
            exact .int hfits
          | float x =>
            obtain ⟨i, _, hi⟩ := Option.bind_eq_some_iff.1 hread
            obtain ⟨hfits, rfl⟩ := eq_of_int32? hi
            exact .int hfits
        | _ => cases hread
      · cases sent with
        | string s =>
          cases hread
          exact .string s
        | _ => cases hread
  · rcases h with rfl | rfl | rfl | rfl | rfl
    · cases literal with
      | boolean b =>
        cases hread
        exact .boolean b
      | _ => cases hread
    · cases literal with
      | int i =>
        obtain ⟨y, rfl⟩ := eq_number_of_ofDouble (Option.some.inj hread) hnull
        exact .float y
      | float x =>
        obtain ⟨y, rfl⟩ := eq_number_of_ofDouble (Option.some.inj hread) hnull
        exact .float y
      | _ => cases hread
    · cases literal with
      | string s =>
        cases hread
        exact .textId _
      | int i =>
        cases hread
        exact .integerId i
      | _ => cases hread
    · cases literal with
      | int i =>
        obtain ⟨hfits, rfl⟩ := eq_of_int32? hread
        exact .int hfits
      | _ => cases hread
    · cases literal with
      | string s =>
        cases hread
        exact .string s
      | _ => cases hread

/-! ## §4. Scalars that read what they yield as itself. -/

/-- What the scalar yields, it reads as itself. -/
def Settled (type : ScalarType) : Prop :=
  ∀ value, type.Yields value → type.parseValue value = some value

/-- Every scalar reads null as null. -/
theorem parseValue_null (type : ScalarType) : type.parseValue .null = some .null := rfl

/-- A text within two pairs of quotes loses one pair each time it is read as an identifier, so `ID` is
left out. -/
theorem settled_of_builtin (h : type ∈ builtins) (hname : type.name ≠ "ID") : type.Settled := by
  intro value hyields
  by_cases hnull : value = .null
  · rw [hnull]
    exact parseValue_null type
  · cases builtinValue_of_yields h hyields hnull with
    | boolean b => rfl
    | float x => rfl
    | textId s => exact absurd rfl hname
    | integerId i => exact absurd rfl hname
    | int hfits =>
      show int32? _ = _
      unfold int32?
      rw [if_pos hfits]
    | string s => rfl

theorem settled_of_anyScalar (h : type.coercion = anyScalar) : type.Settled := by
  intro value _
  unfold parseValue
  rw [h]
  cases hnull : value.isNull with
  | true =>
    rw [Json.isNull_iff.1 hnull]
    rfl
  | false => rfl

end ScalarType

end GraphQLCheck
