import ContextParser.Session.Language

/-!
# Options of a session

A session takes the option `--grammar` with the name of a language, either as the next argument or
after an equals sign, and the option `--strict`. Each may be given once. A double dash ends the
options, and no other arguments are taken.
-/

set_option autoImplicit false

namespace ContextParser.Session

/-- How a session runs. -/
structure Options where
  /-- The language that every line has to match. -/
  language : Language
  /-- Print only values and error messages instead of full outcomes. -/
  strict : Bool
deriving DecidableEq, Repr

/-- What a command line asks for. -/
inductive Request where
  /-- Run a session. -/
  | session (options : Options)
  /-- Tell how the program is used. -/
  | help
  /-- Nothing that the program can do. -/
  | misuse
deriving DecidableEq, Repr

/-- The text after a given beginning, if the text starts with it. -/
def stripStart? (start text : String) : Option String :=
  if start.toList.isPrefixOf text.toList then
    some (String.ofList (text.toList.drop start.toList.length))
  else
    none

/-- Set the language to the one of a given name, unless it is set already. -/
def Language.set? (language : Option Language) (name : String) : Option Language :=
  match language with
  | none => ofName? name
  | some _ => none

/-- Read the arguments one after the other, given the language and the strictness that those before
have set. The first argument that is out of order or asks for help decides. -/
def Request.read (language : Option Language) (strict : Bool) : List String → Request
  | [] => .session { language := language.getD .greeting, strict }
  | argument :: arguments =>
    if argument = "--" then
      if arguments = [] then .session { language := language.getD .greeting, strict } else .misuse
    else if argument = "--strict" then
      if strict then .misuse else read language true arguments
    else if argument = "--grammar" then
      match arguments with
      | [] => .misuse
      | name :: others =>
        match Language.set? language name with
        | some chosen => read (some chosen) strict others
        | none => .misuse
    else
      match stripStart? "--grammar=" argument with
      | some name =>
        match Language.set? language name with
        | some chosen => read (some chosen) strict arguments
        | none => .misuse
      | none =>
        if argument = "--help" ∨ (stripStart? "-h" argument).isSome then .help else .misuse

/-- What a command line asks for. -/
def Request.ofArguments (arguments : List String) : Request :=
  read none false arguments

end ContextParser.Session
