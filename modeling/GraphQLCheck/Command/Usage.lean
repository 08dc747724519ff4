/-
  GraphQLCheck.Command.Usage
  ──────────────────────────
  The command line: what a list of arguments asks for.

      Invocation.ofArguments — a command to run, a text to show, or a misuse

  Arguments are read from the left, and the first one that is wrong or asks for help decides.  An
  option is written `--name value` or `--name=value`; after `--` nothing is an option.
-/

namespace GraphQLCheck

/-! ## §1. Commands. -/

/-- What to check documents with. -/
structure ValidateOptions where
  extensions : List String := ["graphql", "gql"]
  schemas : List String
  variablesFile : Option String := none
  /-- Files and directories. -/
  paths : List String
  deriving DecidableEq, Repr

/-- What to coerce variables with. -/
structure CoerceOptions where
  schemas : List String
  operation : Option String := none
  document : String
  variablesFile : Option String := none
  deriving DecidableEq, Repr

/-- A command. -/
inductive Command where
  | validate (options : ValidateOptions)
  | coerceVariables (options : CoerceOptions)
  deriving DecidableEq, Repr

/-- The name of a command. -/
def Command.name : Command → String
  | .validate _ => "validate"
  | .coerceVariables _ => "coerce-variables"

/-- The paths that a command reads, files and directories alike. -/
def Command.paths : Command → List String
  | .validate options => options.schemas ++ options.variablesFile.toList ++ options.paths
  | .coerceVariables options =>
    options.schemas ++ options.document :: options.variablesFile.toList

/-- What the arguments ask for. -/
inductive Invocation where
  | run (verbose : Bool) (command : Command)
  /-- No command at all. -/
  | idle (verbose : Bool)
  /-- Help about something that is described so. -/
  | help (about : String)
  | version
  | misuse
  deriving DecidableEq, Repr

namespace Usage

/-- What the program is for. -/
def programAbout : String :=
  "Validate GraphQL documents and coerce the values they are run with."

/-- What the command `validate` is for. -/
def validateAbout : String := "Validate executable documents against a schema"

/-- What the command `coerce-variables` is for. -/
def coerceAbout : String := "Coerce raw variable values against one operation of a document"

/-- What the command `help` is for. -/
def helpAbout : String := "Print this message or the help of the given subcommand(s)"

/-! ## §2. Options of a command. -/

/-- An option that takes a value. -/
structure OptionForm where
  name : String
  /-- Whether it may be given more than once. -/
  repeatable : Bool
  /-- Whether its value may be empty. -/
  takesEmpty : Bool

/-- The arguments that a command takes. -/
structure ArgumentForm where
  options : List OptionForm
  /-- How many arguments may follow that are no options. -/
  mostPaths : Option Nat
  /-- What the command is for. -/
  about : String

/-- The arguments that were given to a command. -/
structure GivenArguments where
  /-- Options with their values, in order. -/
  options : List (String × String) := []
  paths : List String := []

namespace GivenArguments

/-- The values of an option, in order. -/
def values (given : GivenArguments) (name : String) : List String :=
  given.options.filterMap fun option => if option.1 = name then some option.2 else none

/-- Add a value of an option. -/
def addOption? (given : GivenArguments) (form : OptionForm) (value : String) :
    Option GivenArguments :=
  if !form.repeatable && !(given.values form.name).isEmpty then none
  else if !form.takesEmpty && value.isEmpty then none
  else some { given with options := given.options ++ [(form.name, value)] }

/-- Add a path. -/
def addPath? (given : GivenArguments) (form : ArgumentForm) (path : String) :
    Option GivenArguments :=
  if path.isEmpty || form.mostPaths.any (· ≤ given.paths.length) then none
  else some { given with paths := given.paths ++ [path] }

end GivenArguments

/-- The name and the value of an argument that follows two dashes. -/
def splitValue (text : List Char) : String × Option String :=
  let (name, rest) := text.span (· != '=')
  match rest with
  | _ :: value => (String.ofList name, some (String.ofList value))
  | [] => (String.ofList name, none)

/-- Whether an argument cannot be the value of an option before it. -/
def startsOption (argument : String) : Bool :=
  match argument.toList with
  | '-' :: _ :: _ => true
  | _ => false

/-- Read the arguments of a command.  An error is what the arguments ask for instead. -/
def readArguments (form : ArgumentForm) (given : GivenArguments) :
    List String → Except Invocation GivenArguments
  | [] => .ok given
  | argument :: rest =>
    match argument.toList with
    | ['-', '-'] =>
      -- nothing that follows is an option
      match rest.foldlM (fun given path => given.addPath? form path) given with
      | some given => .ok given
      | none => .error .misuse
    | '-' :: '-' :: text =>
      match splitValue text with
      | ("help", none) => .error (.help form.about)
      | (name, attached) =>
        match form.options.find? (·.name == name), attached, rest with
        | some option, some value, rest =>
          match given.addOption? option value with
          | some given => readArguments form given rest
          | none => .error .misuse
        | some option, none, value :: rest =>
          match if startsOption value then none else given.addOption? option value with
          | some given => readArguments form given rest
          | none => .error .misuse
        | _, _, _ => .error .misuse
    -- the commands have no short options but this one
    | '-' :: 'h' :: _ => .error (.help form.about)
    | '-' :: _ :: _ => .error .misuse
    | _ =>
      match given.addPath? form argument with
      | some given => readArguments form given rest
      | none => .error .misuse

/-- The arguments of `validate`. -/
def validateForm : ArgumentForm where
  options :=
    [{ name := "graphql-file-exts", repeatable := true, takesEmpty := true },
     { name := "schema", repeatable := true, takesEmpty := false },
     { name := "variables", repeatable := false, takesEmpty := false }]
  mostPaths := none
  about := validateAbout

/-- The arguments of `coerce-variables`. -/
def coerceForm : ArgumentForm where
  options :=
    [{ name := "schema", repeatable := true, takesEmpty := false },
     { name := "operation", repeatable := false, takesEmpty := true }]
  mostPaths := some 2
  about := coerceAbout

/-- Read `validate`.  It needs a schema and a path. -/
def readValidate (arguments : List String) : Except Invocation Command := do
  let given ← readArguments validateForm {} arguments
  let schemas := given.values "schema"
  if schemas.isEmpty || given.paths.isEmpty then .error .misuse
  else
    let options : ValidateOptions :=
      { schemas, variablesFile := (given.values "variables").head?, paths := given.paths }
    match given.values "graphql-file-exts" with
    | [] => .ok (.validate options)
    | lists =>
      .ok (.validate { options with extensions := lists.flatMap (·.splitToList (· == ',')) })

/-- Read `coerce-variables`.  It needs a schema and a document. -/
def readCoerce (arguments : List String) : Except Invocation Command := do
  let given ← readArguments coerceForm {} arguments
  let schemas := given.values "schema"
  match schemas, given.paths with
  | _ :: _, document :: paths =>
    .ok (.coerceVariables
      { schemas, operation := (given.values "operation").head?, document,
        variablesFile := paths.head? })
  | _, _ => .error .misuse

/-! ## §3. The whole command line. -/

/-- What a request for help is about. -/
def readHelp : List String → Invocation
  | [] => .help programAbout
  | ["validate"] => .help validateAbout
  | ["coerce-variables"] => .help coerceAbout
  | ["help"] => .help helpAbout
  | _ => .misuse

/-- Read the letters of a short argument, or what they ask for.  Yields whether to be verbose. -/
def readLetters (verbose : Bool) : List Char → Except Invocation Bool
  | [] => .ok verbose
  | 'v' :: letters => if verbose then .error .misuse else readLetters true letters
  | 'h' :: _ => .error (.help programAbout)
  | 'V' :: _ => .error .version
  | _ => .error .misuse

/-- A command, or what its arguments ask for instead. -/
def runOr (verbose : Bool) : Except Invocation Command → Invocation
  | .ok command => .run verbose command
  | .error invocation => invocation

/-- Read all arguments. -/
def readAll (verbose : Bool) : List String → Invocation
  | [] => .idle verbose
  | ["--"] => .idle verbose
  | "--help" :: _ => .help programAbout
  | "--version" :: _ => .version
  | "--verbose" :: rest => if verbose then .misuse else readAll true rest
  | "validate" :: rest => runOr verbose (readValidate rest)
  | "coerce-variables" :: rest => runOr verbose (readCoerce rest)
  | "help" :: rest => readHelp rest
  | argument :: rest =>
    match argument.toList with
    | '-' :: '-' :: _ => .misuse
    | '-' :: letter :: letters =>
      match readLetters verbose (letter :: letters) with
      | .ok verbose => readAll verbose rest
      | .error invocation => invocation
    | _ => .misuse

end Usage

namespace Invocation

/-- What the arguments ask for. -/
def ofArguments (arguments : List String) : Invocation := Usage.readAll false arguments

/-- The paths that are read. -/
def paths : Invocation → List String
  | run _ command => command.paths
  | _ => []

end Invocation

end GraphQLCheck
