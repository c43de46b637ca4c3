import ContextParser.Parser.Whole
import ContextParser.Session.Language
import ContextParser.Session.Options

/-!
# Running a session

A session parses one line after the other and prints one text for each. The table of declared names
lasts over all lines; a line that fails leaves it as it is.
-/

set_option autoImplicit false

namespace ContextParser.Session

/-- What a strict session prints for the outcome of a line: the value, or the message after the word
error. -/
def report {α : Type} (describe : α → String) : Outcome ParseError α → String
  | .success value => describe value
  | .failure error => "error: " ++ error.display
  | .fault cause => cause.message

/-- What a session prints for a line of the language of greetings. -/
def greetLine (strict : Bool) (line : String) : String :=
  if strict then
    report inspect (greeting.run line)
  else
    inspect (greeting.parse line)

/-- What a session prints for a line of the language of declarations, and the table after it. -/
def declareLine (strict : Bool) (table : NameTable) (line : String) : String × NameTable :=
  if strict then
    let outcome := statement.runWith line table
    (report (·.1.display) outcome,
      match outcome with
      | .success (_, next) => next
      | _ => table)
  else
    let outcome := statement.parseWith line table
    (inspect outcome,
      match outcome with
      | .success r => r.state.context
      | _ => table)

/-- What a session prints for a line, and the table after it. -/
def step (options : Options) (table : NameTable) (line : String) : String × NameTable :=
  match options.language with
  | .greeting => (greetLine options.strict line, table)
  | .declarations => declareLine options.strict table line

/-- What a session prints for the given lines, one text for each, from a given table on. -/
def runFrom (options : Options) (table : NameTable) : List String → List String
  | [] => []
  | line :: lines =>
    let (printed, next) := step options table line
    printed :: runFrom options next lines

/-- What a session prints for the given lines, one text for each. -/
def run (options : Options) (lines : List String) : List String :=
  runFrom options .empty lines

/-- How the program is used. -/
def usageText : String :=
  "Parse every line of standard input.\n\n" ++
  "  --grammar <greeting|declarations>  the grammar that every line has to match\n" ++
  "  --strict                           print only values and error messages\n" ++
  "  --help                             print this text\n"

end ContextParser.Session
