/-
  GraphQLCheck.Command.Log
  ────────────────────────
  Log records, and computations that write some.

  A `Logged` computation is a value together with the records that lead up to it, so what a command
  answers never depends on what it logs: `Logged.value` of a sequence is the value of the last part.
-/
import GraphQLCheck.Text.Ascii
import GraphQLCheck.Text.Blank

namespace GraphQLCheck

/-! ## §1. Records. -/

/-- How important a record is, the least important first. -/
inductive LogLevel where
  | trace
  | debug
  | info
  | warn
  deriving DecidableEq, Repr

namespace LogLevel

/-- The name of a level. -/
def render : LogLevel → String
  | .trace => "TRACE"
  | .debug => "DEBUG"
  | .info => "INFO"
  | .warn => "WARN"

/-- The rank of a level. -/
def rank : LogLevel → Nat
  | .trace => 0
  | .debug => 1
  | .info => 2
  | .warn => 3

/-- The level that a word names, in upper or in lower case; `verbose` is another name of `debug`. -/
def ofWord? (word : String) : Option LogLevel :=
  match word with
  | "DEBUG" | "debug" | "VERBOSE" | "verbose" => some .debug
  | "INFO" | "info" => some .info
  | "TRACE" | "trace" => some .trace
  | _ => none

end LogLevel

/-- A record. -/
structure LogRecord where
  level : LogLevel
  message : String
  deriving DecidableEq, Repr

/-- How a character of a message is shown.  Those controls that a terminal may take for a command are
escaped; all else, line feeds included, stands as it is. -/
def showLogChar (c : Char) : List Char :=
  if ['\x07', '\x08', '\x0c', '\x1b', '\x7f'].contains c then
    ['\\', 'x', Text.lowerHexDigit (c.toNat / 16), Text.lowerHexDigit (c.toNat % 16)]
  else if 0x80 ≤ c.toNat && c.toNat ≤ 0x9F then
    ['\\', 'u', '\x7b', Text.lowerHexDigit (c.toNat / 16), Text.lowerHexDigit (c.toNat % 16), '\x7d']
  else [c]

/-- The text of a record. -/
def LogRecord.render (record : LogRecord) : String :=
  record.level.render ++ " " ++ String.ofList (record.message.toList.flatMap showLogChar)

/-- The lines of the text of a record: its first line, and those that follow it if there are line feeds
in its message. -/
def LogRecord.lines (record : LogRecord) : String × List String :=
  match record.render.splitToList (· == '\n') with
  | [] => ("", [])
  | first :: others => (first, others)

/-! ## §2. Computations that log. -/

/-- A value and the records that lead up to it. -/
structure Logged (α : Type) where
  records : List LogRecord
  value : α

namespace Logged

/-- Write a record. -/
def log (level : LogLevel) (message : String) : Logged Unit := ⟨[⟨level, message⟩], ()⟩

/-- A value without records. -/
def quiet (value : α) : Logged α := ⟨[], value⟩

/-- One computation after the other. -/
def andThen (first : Logged α) (next : α → Logged β) : Logged β :=
  ⟨first.records ++ (next first.value).records, (next first.value).value⟩

instance : Monad Logged where
  pure := quiet
  bind := andThen

instance : LawfulMonad Logged :=
  LawfulMonad.mk' _ (by intro α x; simp [Functor.map, andThen, quiet])
    (by intros; simp [pure, bind, andThen, quiet])
    (by intros; simp [bind, andThen, List.append_assoc])

/-- The value of a sequence is that of its last part. -/
@[simp] theorem value_bind (first : Logged α) (next : α → Logged β) :
    (first >>= next).value = (next first.value).value := rfl

@[simp] theorem value_pure (value : α) : (pure value : Logged α).value = value := rfl

end Logged

/-! ## §3. Levels that are asked for. -/

/-- The level from which records are shown, with a warning about a word that names no level.  A
command that is to be verbose shows all but the least important ones. -/
def shownFrom (verbose : Bool) (word : Option String) : Logged LogLevel :=
  if verbose then .quiet .debug
  else
    match word.map fun word => String.ofList (Text.trim word.toList) with
    | none => .quiet .info
    | some word =>
      match LogLevel.ofWord? word with
      | some level => .quiet level
      | none =>
        ⟨[⟨.warn, "Invalid `LOG_LEVEL` environment variable value: `" ++ word ++ "`"⟩], .info⟩

end GraphQLCheck
