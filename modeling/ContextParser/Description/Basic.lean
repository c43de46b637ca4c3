import ContextParser.Description.CharClass
import ContextParser.Description.Expr
import ContextParser.Failure

/-!
# Descriptions of grammars

A description is a grammar without functions: wherever a grammar takes a function, a predicate or a
parser from outside, its description holds expressions. It can therefore be read from a file, and
all its values are dynamic.

The texts and messages in a description are expressions too. They are evaluated when the grammar is
built, where the variables of the enclosing `bind`s are known.
-/

set_option autoImplicit false

namespace ContextParser

/-- A single step of a parse, described by what it does to the state. All expressions see the state
before the step. -/
structure Step where
  /-- Whether the step succeeds. -/
  succeeds : Expr := .constant (.bool true)
  /-- What a success yields. -/
  value : Expr := .constant .unit
  /-- What a failure tells. -/
  message : Expr := .constant (.text "")
  /-- The kind of a failure. -/
  kind : FailureKind := .mismatch
  /-- Another text to go on with, from its beginning. -/
  text : Option Expr := none
  /-- The index to go on from. -/
  index : Option Expr := none
  /-- The number of bytes to move forward from there. -/
  advance : Option Expr := none
  /-- Another context to go on with. -/
  context : Option Expr := none

/-- A grammar without functions. -/
inductive Description where
  | succeed (value : Expr)
  | fail (message : Expr)
  /-- Consume the length that an expression over the state yields, if it yields one. -/
  | when (length message : Expr)
  | endOfText
  | context
  | wordBoundary
  | whitespace
  | whitespaceChar
  | identifier
  | literal (text : Expr)
  | keyword (text : Expr)
  | chars (accepted : CharClass)
  | charSpan (initial following : CharClass)
  /-- A step that no combination of the others describes. -/
  | step (single : Step)
  /-- Refer to a rule, with a value for it to work with. -/
  | call (name : String) (argument : Option Expr)
  | delay (inner : Description)
  | spaces (inner : Description)
  /-- Give the value a name, and go on with a grammar that may use it. -/
  | bind (inner : Description) (name : String) (next : Description)
  /-- Apply an expression over `x`, the value. -/
  | map (inner : Description) (f : Expr)
  /-- Apply an expression over `x`, the value, and `c`, the context. -/
  | mapWith (inner : Description) (f : Expr)
  /-- Replace the context by an expression over `c`, the context, and `x`, the value. -/
  | modifyContext (inner : Description) (f : Expr)
  /-- Merge two values by an expression over `l` and `r`. -/
  | zipWith (left right : Description) (f : Expr)
  | both (left right : Description)
  | or (left right : Description)
  | seqLeft (left right : Description)
  | seqRight (left right : Description)
  | between (inner left right : Description)
  | all (parts : List Description)
  | any (alternatives : List Description)
  | many (inner : Description)
  | many1 (inner : Description)
  | separatedBy (inner separator : Description)
  | opt (inner : Description)
  | label (inner : Description) (message : Expr)
  | withText (inner : Description)

end ContextParser
