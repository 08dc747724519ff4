/-
  GraphQLCheck.Command.Program
  ────────────────────────────
  The whole program as a function: from its arguments, the level of logging that is asked for and the
  files, to what it prints and its exit code.
-/
import GraphQLCheck.Command.CoerceVariables
import GraphQLCheck.Command.Validate

namespace GraphQLCheck

namespace Command

/-- What a command has to do. -/
def task (files : FileLookup) : Command → Task Report
  | .validate options => options.run files
  | .coerceVariables options => options.run files

/-- The report on what a command comes to.  An error makes one too; there is none only where the command
never ends. -/
def report : Outcome CommandError Report → Outcome Empty Report
  | .value report => .value report
  | .failure error => .value (.failure error.message)
  | .endless => .endless

/-- The report of a command, if it ends. -/
def run (files : FileLookup) (command : Command) : Logged (Outcome Empty Report) := do
  Logged.log .debug ("Running `" ++ command.name ++ "`.")
  return report (← (command.task files).run)

end Command

/-- What the program prints, and its exit code. -/
structure ProgramOutput where
  exitCode : Nat
  /-- Log records, which come before all else. -/
  records : List LogRecord := []
  output : Option String := none
  errorOutput : Option String := none

namespace ProgramOutput

/-- The name and the version of the program. -/
def versionText : String := "graphql 0.1.1"

/-- The forms of the command line. -/
def usageText : String :=
  "\n".intercalate
    ["Usage: graphql [-v|--verbose] validate --schema <SCHEMA> [--graphql-file-exts <EXTS>]",
     "           [--variables <PATH>] <FILE_OR_DIR_PATHS>...",
     "       graphql [-v|--verbose] coerce-variables --schema <SCHEMA> [--operation <NAME>]",
     "           <DOCUMENT_PATH> [VARIABLES_PATH]",
     "       graphql help [COMMAND]",
     "       graphql --version"]

/-- Help about something that is described so. -/
def helpText (about : String) : String := about ++ "\n\n" ++ usageText

/-- The exit code of a run without an end, which is broken off once it has used up its stack. -/
def abortCode : Nat := 134

/-- The output of a computation whose records are shown from the level that is asked for. -/
def ofLogged (verbose : Bool) (levelWord : Option String)
    (computation : Logged (Outcome Empty Report)) : ProgramOutput :=
  let shown := shownFrom verbose levelWord
  let first : LogRecord :=
    ⟨.trace, "Initial logging level set to `" ++ shown.value.render ++ "`."⟩
  let records := (first :: shown.records ++ computation.records).filter fun record =>
    shown.value.rank ≤ record.level.rank
  match computation.value with
  | .value report =>
    { exitCode := report.exitCode
      records
      output := report.output?
      errorOutput := report.error? }
  | .endless => { exitCode := abortCode, records }

end ProgramOutput

open ProgramOutput in
/-- Run the program. -/
def runProgram (files : FileLookup) (levelWord : Option String) (arguments : List String) :
    ProgramOutput :=
  match Invocation.ofArguments arguments with
  | .run verbose command => .ofLogged verbose levelWord (command.run files)
  | .idle verbose => .ofLogged verbose levelWord (pure (.value (.success (helpText Usage.programAbout))))
  | .help about => { exitCode := 0, output := some (helpText about) }
  | .version => { exitCode := 0, output := some versionText }
  | .misuse =>
    { exitCode := 2
      errorOutput := some ("error: unexpected or missing arguments\n\n" ++ usageText) }

end GraphQLCheck
