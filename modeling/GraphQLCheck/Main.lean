/-
  GraphQLCheck.Main
  ─────────────────
  The program: it reads what its arguments name, runs, prints and exits.

  All decisions are those of `runProgram`, a function of the files' contents; here is only what
  touches the world.
-/
import GraphQLCheck.Command.Program

namespace GraphQLCheck

/-- What a path leads to, with everything beneath it. -/
partial def nodeAt (path : String) : IO (Option FileNode) := do
  match ← (IO.FS.realPath path).toBaseIO with
  | .error _ => return none
  | .ok place =>
    if ← place.isDir then
      let mut entries := []
      for entry in ← place.readDir do
        if let some node ← nodeAt entry.path.toString then
          entries := entries ++ [(entry.fileName, node)]
      return some (.directory entries)
    match ← (IO.FS.readBinFile place).toBaseIO with
    | .ok bytes => return some (.file bytes.toList)
    | .error cause => return some (.unreadable cause.toString)

/-- What each of some paths leads to. -/
def nodesAt (paths : List String) : IO (List (String × Option FileNode)) :=
  paths.mapM fun path => return (path, ← nodeAt path)

/-- Print an output. -/
def ProgramOutput.print (output : ProgramOutput) : IO Unit := do
  for record in output.records do
    IO.println record.render
  if let some text := output.output then
    IO.println text
  if let some text := output.errorOutput then
    IO.eprintln text

end GraphQLCheck

open GraphQLCheck in
/-- Run the program. -/
def main (arguments : List String) : IO UInt32 := do
  let nodes ← nodesAt (Invocation.ofArguments arguments).paths
  let output := runProgram (fun path => (nodes.lookup path).join) (← IO.getEnv "LOG_LEVEL") arguments
  output.print
  return output.exitCode.toUInt32
