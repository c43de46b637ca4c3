import ContextParser.Parser.Basic

/-!
# Running parsers on whole texts

A parser on its own starts at any place of a text and may stop at any other, so that others can go
on from there. A run on a whole text starts at the beginning and demands that the parser stops at
the end; one that stops earlier has failed where it stopped.
-/

set_option autoImplicit false

namespace ContextParser.Parser

variable {C α : Type}

/-- Run a parser from an index of a text, wherever it stops. An index that is no character boundary
is a fault. -/
def parseFrom (p : Parser C α) (text : String) (context : C) (index : Nat) :
    Outcome (Failure C) (Success C α) :=
  (Outcome.ofExcept ((State.start text context).advance index)).bind p

/-- Run a parser on a whole text from a given context. -/
def parseWith (p : Parser C α) (text : String) (context : C) :
    Outcome (Failure C) (Success C α) :=
  (p (.start text context)).bind fun r =>
    if r.state.isAtEnd then .success r else .failure (.trailing r.state)

/-- Run a parser on a whole text where there is nothing to carry along. -/
def parse (p : Parser Unit α) (text : String) : Outcome (Failure Unit) (Success Unit α) :=
  parseWith p text ()

/-- Run a parser on a whole text from a given context, for its value and the final context. -/
def runWith (p : Parser C α) (text : String) (context : C) : Outcome ParseError (α × C) :=
  ((parseWith p text context).map fun r => (r.value, r.state.context)).mapFailure
    Failure.toParseError

/-- Run a parser on a whole text where there is nothing to carry along, for its value. -/
def run (p : Parser Unit α) (text : String) : Outcome ParseError α :=
  ((parse p text).map (·.value)).mapFailure Failure.toParseError

end ContextParser.Parser
