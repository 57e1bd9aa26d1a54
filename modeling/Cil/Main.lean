/-
The program: reads the file a command names, runs the command and prints what it answers.
-/
import Cil.CommandLine

namespace Cil.Command

/-- The content of a file, if there is one. -/
def readContent (file : String) : IO (Option ByteArray) := do
  try
    return some (← IO.FS.readBinFile file)
  catch
    | .noFileOrDirectory .. => return none
    | e => throw e

/-- Runs a command and prints what it answers. -/
def execute (c : Command) : IO UInt32 := do
  let outcome := c.run (← readContent c.file)
  IO.print outcome.stdout
  IO.eprint outcome.stderr
  return outcome.exit

end Cil.Command

def main (args : List String) : IO UInt32 := do
  match Cil.Command.ofArguments? args with
  | some c => c.execute
  | none =>
    IO.eprint Cil.Command.usage
    return 2
