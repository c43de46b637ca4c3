import ContextParser.Session.Run
import ContextParser.Text.Lines

/-!
# The command line

The program runs a session on the lines of standard input.
-/

set_option autoImplicit false

namespace ContextParser

/-- Print what the session has to say about each line as it comes in. -/
partial def serve (options : Session.Options) (input output : IO.FS.Stream)
    (table : Session.NameTable) : IO Unit := do
  match Text.lines (← input.getLine) with
  | [] => pure ()
  | line :: _ =>
    let (printed, next) := Session.step options table line
    output.putStrLn printed
    serve options input output next

end ContextParser

/-- Run the session that the arguments ask for. -/
def main (arguments : List String) : IO UInt32 := do
  match ContextParser.Session.Request.ofArguments arguments with
  | .session options =>
    ContextParser.serve options (← IO.getStdin) (← IO.getStdout) .empty
    pure 0
  | .help =>
    IO.print ContextParser.Session.usageText
    pure 0
  | .misuse =>
    IO.eprint ContextParser.Session.usageText
    pure 2
