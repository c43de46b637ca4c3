import ContextParser.Outcome

/-!
# Parsers

A parser maps a state to an outcome: a value with the state to go on from, or a failure with the
state at which it got stuck. It is a function and keeps nothing from one run to the next.

This module holds the parsers that are not made of others. Of these only `when` moves the cursor.
-/

set_option autoImplicit false

namespace ContextParser

/-- A parser of values of type `α` that carries a context of type `C`. -/
abbrev Parser (C α : Type) : Type :=
  State C → Outcome (Failure C) (Success C α)

namespace Parser

variable {C α : Type}

/-- Yield a value without consuming anything. -/
def succeed (value : α) : Parser C α := fun s =>
  .success { state := s, value }

/-- Fail with a message without consuming anything. -/
def fail (message : String) : Parser C α := fun s =>
  .failure (.mismatch message s)

/-- Consume as many bytes as a predicate on the state says, or fail where the predicate says
nothing. The context stays as it is. A length that leads past the end of the text or into a
character is a fault.

Predicates look at the text on both sides of the cursor, so it is cut there before anything else;
a cursor off a boundary is a fault. -/
def when (predicate : State C → Option Nat) (message : String) : Parser C Unit := fun s =>
  (Outcome.ofExcept (Text.cut s.index s.text.toList)).bind fun (_, rest) =>
    match predicate s with
    | none => .failure (.mismatch message s)
    | some length =>
      if Text.isBoundary length rest then
        (Outcome.ofExcept (s.advance length)).map fun t => { state := t, value := () }
      else
        .fault (.lengthOffBoundary length)

/-- Succeed at the end of the text only. -/
def endOfText : Parser C Unit :=
  when (fun s => if s.isAtEnd then some 0 else none) Failure.endExpected

/-- Yield the context. -/
def context : Parser C C := fun s =>
  .success { state := s, value := s.context }

end Parser

end ContextParser
