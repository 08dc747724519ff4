/-
  GraphQLCheck.Json.Basic
  ───────────────────────
  Runtime values.  A JSON value is what a variable is sent as, and what a literal, an argument or a
  variable is worth once it has been coerced.

  Numbers keep the difference between integers and doubles, and a double is always finite.  An
  object is the list of its entries in the order in which they were first written.
-/
import GraphQLCheck.Number.Double

namespace GraphQLCheck

/-! ## §1. Entries. -/

namespace Entries

/-- Give a key a value: in the place of its first entry, or else at the end. -/
def put (entries : List (String × α)) (key : String) (value : α) : List (String × α) :=
  match entries with
  | [] => [(key, value)]
  | entry :: rest => if entry.1 = key then (key, value) :: rest else entry :: put rest key value

/-- Entries as written, with each key left in its first place and with its last value. -/
def ofWritten (entries : List (String × α)) : List (String × α) :=
  entries.foldl (fun kept entry => put kept entry.1 entry.2) []

theorem lookup_put_self (entries : List (String × α)) (key : String) (value : α) :
    (put entries key value).lookup key = some value := by
  induction entries with
  | nil => simp [put]
  | cons entry rest ih =>
    obtain ⟨name, old⟩ := entry
    by_cases h : name = key
    · simp [put, h]
    · have h' : (key == name) = false := by simpa using fun e => h e.symm
      simp only [put, h, if_false, List.lookup_cons, h', ih]

end Entries

/-! ## §2. Values. -/

/-- A number as written: an integer, or a finite double. -/
inductive JsonNumber where
  | integer (i : Int)
  | float (x : FiniteDouble)
  deriving DecidableEq, Repr

/-- The nearest double; a double is itself. -/
def JsonNumber.toDouble : JsonNumber → Double
  | .integer i => .ofInt i
  | .float x => .finite x

/-- A runtime value. -/
inductive Json where
  | null
  | bool (b : Bool)
  | number (n : JsonNumber)
  | string (s : String)
  | array (items : List Json)
  | object (entries : List (String × Json))
  deriving BEq, Repr, Inhabited

namespace Json

/-- Whether the value is `null`. -/
def isNull : Json → Bool
  | .null => true
  | _ => false

/-- The value of an integer. -/
def ofInt (i : Int) : Json := .number (.integer i)

/-- The value of a double: `null` for what is no finite number. -/
def ofDouble : Double → Json
  | .finite x => .number (.float x)
  | _ => .null

end Json

/-- Values by variable name, or by argument name. -/
abbrev Variables := List (String × Json)

end GraphQLCheck
