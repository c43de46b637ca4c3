import ContextParser.State

/-!
# Failures

A parser that does not match answers with a failure, which tells what went wrong and keeps the state
at which it was detected. Once a run on a whole text is over, a parse error is what remains of its
failure: the state has given way to a position.
-/

set_option autoImplicit false

namespace ContextParser

/-- Why a parser failed. -/
inductive FailureKind where
  /-- Something else was expected at the cursor. -/
  | mismatch
  /-- Every alternative of a choice failed. -/
  | exhaustedAlternatives
  /-- The parser stopped before the end of the text. -/
  | trailingInput
deriving DecidableEq, Repr

namespace FailureKind

/-- The name of a kind of failure. -/
def name : FailureKind → String
  | mismatch => "Mismatch"
  | exhaustedAlternatives => "ExhaustedAlternatives"
  | trailingInput => "TrailingInput"

end FailureKind

/-- A failure, and the state at which it was detected. -/
structure Failure (C : Type) where
  kind : FailureKind
  message : String
  state : State C
deriving DecidableEq, Repr

/-- The failure of a whole run, which no longer holds on to the text. -/
structure ParseError where
  kind : FailureKind
  message : String
  position : Position
deriving DecidableEq, Repr

/-- What is told about an error: the message and the place. -/
def ParseError.display (e : ParseError) : String :=
  e.message ++ " at " ++ e.position.display

namespace Failure

variable {C : Type}

/-- What is said where a text goes on but should not. -/
def endExpected : String := "Expected end of file"

/-- Something else was expected at the cursor. -/
def mismatch (message : String) (state : State C) : Failure C :=
  { kind := .mismatch, message, state }

/-- All alternatives failed, with the given messages, which are told one per line. -/
def exhausted (messages : List String) (state : State C) : Failure C :=
  { kind := .exhaustedAlternatives, message := "\n".intercalate messages, state }

/-- The parser stopped before the end of the text. -/
def trailing (state : State C) : Failure C :=
  { kind := .trailingInput, message := endExpected, state }

/-- Where a failure was detected. -/
def position (e : Failure C) : Position :=
  e.state.position

/-- What is told about a failure: the message and the place. -/
def display (e : Failure C) : String :=
  e.message ++ " at " ++ e.position.display

/-- What remains of a failure once the run is over. -/
def toParseError (e : Failure C) : ParseError :=
  { kind := e.kind, message := e.message, position := e.position }

/-- What is told about a failure does not change when the run is over. -/
@[simp] theorem display_toParseError (e : Failure C) : e.toParseError.display = e.display := rfl

end Failure

end ContextParser
