import NoteSheet.Command

/-!
# The program

Reads the scene file that the arguments name, prints what the command line
responds, and exits with its code.
-/

open NoteSheet

/-- The text of a file, if it can be read. -/
def readFile? (file : String) : IO (Option String) := do
  try
    return some (← IO.FS.readFile file)
  catch _ =>
    return none

def main (arguments : List String) : IO UInt32 := do
  let content ←
    match (Command.parse arguments).toOption.bind Command.file? with
    | some file => readFile? file
    | none => pure none
  let outcome := Command.respond (fun _ => content) arguments
  IO.print outcome.output
  IO.eprint outcome.errors
  return outcome.exitCode.toUInt32
