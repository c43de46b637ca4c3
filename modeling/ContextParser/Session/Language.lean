import ContextParser.Parser.Text
import ContextParser.Session.NameTable

/-!
# The two languages of a session

A greeting is the word `fzoo` and the heart `<3`, with any whitespace between. A statement declares
a name, as in `let x;`, or uses a name that was declared before, as in `use x;`. The context of a
parse of statements is the table of declared names.
-/

set_option autoImplicit false

namespace ContextParser.Session

open ContextParser.Parser

/-- A language that lines can be held against. -/
inductive Language where
  | greeting
  | declarations
deriving DecidableEq, Repr

/-- The language of a name. -/
def Language.ofName? : String → Option Language
  | "greeting" => some .greeting
  | "declarations" => some .declarations
  | _ => none

/-- What a line of the language of declarations says. -/
inductive Statement where
  | declare (name : String)
  | use (name : String)
deriving DecidableEq, Repr

namespace Statement

/-- What is reported about a statement. -/
def display : Statement → String
  | declare name => "declared " ++ name
  | use name => "used " ++ name

instance : Inspect Statement where
  inspect
    | declare name => Inspect.wrapped "Let" (inspect name)
    | use name => Inspect.wrapped "Use" (inspect name)

end Statement

/-- The word and the heart, with any whitespace between. -/
def greeting : Parser Unit (String × String) :=
  zipWith (seqLeft (keyword "fzoo") whitespace) (keyword "<3") Prod.mk

/-- Declare a name: it is in the table from here on. -/
def declaration : Parser NameTable Statement :=
  map
    (modifyContext
      (seqLeft (seqRight (spaces (keyword "let")) (spaces identifier)) (spaces (literal ";")))
      NameTable.insert)
    Statement.declare

/-- Demand that a name is in the table. -/
def declared (name : String) : Parser NameTable String :=
  map
    (when (fun s => if name ∈ s.context then some 0 else none) ("Use of undeclared name " ++ name))
    fun _ => name

/-- Use a declared name. -/
def usage : Parser NameTable Statement :=
  map
    (seqLeft
      (seqLeft (seqRight (spaces (keyword "use")) (bind identifier declared)) whitespace)
      (spaces (literal ";")))
    Statement.use

/-- A declaration or a use, with any whitespace around. -/
def statement : Parser NameTable Statement :=
  seqRight whitespace (any [declaration, usage])

end ContextParser.Session
