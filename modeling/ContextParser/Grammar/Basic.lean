import ContextParser.Parser.Basic
import ContextParser.Parser.Text

/-!
# Grammars

A grammar is a parser as data: a tree of the parsers and combinators of this library, which may
refer to rules by name and so describe recursive formats. Because it is data, one can say of a
grammar that it is built from certain pieces only, and prove what follows for every parser so built.

The leaves that the user supplies are kept apart from those of the library: `when` takes a predicate
on states, and `custom` takes any parser at all.
-/

set_option autoImplicit false

namespace ContextParser

/-- Grammars of values of type `α` over contexts of type `C`. A member of `R α` names a rule that
yields values of type `α`. -/
inductive Grammar (C : Type) (R : Type → Type) : Type → Type 1 where
  /-- Yield a value. -/
  | succeed {α : Type} (value : α) : Grammar C R α
  /-- Fail with a message. -/
  | fail {α : Type} (message : String) : Grammar C R α
  /-- Consume as many bytes as a predicate says. -/
  | when (predicate : State C → Option Nat) (message : String) : Grammar C R Unit
  /-- Succeed at the end of the text. -/
  | endOfText : Grammar C R Unit
  /-- Yield the context. -/
  | context : Grammar C R C
  /-- Consume exactly the given text. -/
  | literal (text : String) : Grammar C R String
  /-- Consume exactly the given text where a word boundary follows it. -/
  | keyword (text : String) : Grammar C R String
  /-- Succeed at a word boundary. -/
  | wordBoundary : Grammar C R Unit
  /-- Consume as much whitespace as there is. -/
  | whitespace : Grammar C R Unit
  /-- Consume one whitespace character. -/
  | whitespaceChar : Grammar C R Unit
  /-- Consume a character of one class and those of another after it. -/
  | charSpan (initial following : Char → Bool) : Grammar C R String
  /-- Run a parser that comes from outside the library. -/
  | custom {α : Type} (parser : Parser C α) : Grammar C R α
  /-- Refer to a rule. -/
  | call {α : Type} (rule : R α) : Grammar C R α
  /-- Build the grammar only when it is run. -/
  | delay {α : Type} (grammar : Unit → Grammar C R α) : Grammar C R α
  /-- Go on with a grammar made from the value. -/
  | bind {α β : Type} (grammar : Grammar C R α) (next : α → Grammar C R β) : Grammar C R β
  /-- Apply a function to the value. -/
  | map {α β : Type} (grammar : Grammar C R α) (f : α → β) : Grammar C R β
  /-- Apply a function to the value and the context. -/
  | mapWith {α β : Type} (grammar : Grammar C R α) (f : α → C → β) : Grammar C R β
  /-- Replace the context by a function of it and of the value. -/
  | modifyContext {α : Type} (grammar : Grammar C R α) (f : C → α → C) : Grammar C R α
  /-- Run two in sequence and merge their values. -/
  | zipWith {α β γ : Type} (left : Grammar C R α) (right : Grammar C R β) (f : α → β → γ) :
      Grammar C R γ
  /-- Run a family in sequence. -/
  | all {n : Nat} {τ : Fin n → Type} (grammars : (i : Fin n) → Grammar C R (τ i)) :
      Grammar C R ((i : Fin n) → τ i)
  /-- Run the first of a family that succeeds. -/
  | any {n : Nat} {α : Type} (grammars : Fin n → Grammar C R α) : Grammar C R α
  /-- Repeat, also not at all. -/
  | many {α : Type} (grammar : Grammar C R α) : Grammar C R (List α)
  /-- Repeat at least once. -/
  | many1 {α : Type} (grammar : Grammar C R α) : Grammar C R (List α)
  /-- Repeat with separators between. -/
  | separatedBy {α β : Type} (grammar : Grammar C R α) (separator : Grammar C R β) :
      Grammar C R (List α)
  /-- Make optional. -/
  | opt {α : Type} (grammar : Grammar C R α) : Grammar C R (Option α)
  /-- Replace the message of a failure. -/
  | label {α : Type} (grammar : Grammar C R α) (message : String) : Grammar C R α
  /-- Yield the consumed text too. -/
  | withText {α : Type} (grammar : Grammar C R α) : Grammar C R (α × String)

namespace Grammar

variable {C : Type} {R : Type → Type} {α β γ : Type}

/-- Run two in sequence and pair their values. -/
def both (left : Grammar C R α) (right : Grammar C R β) : Grammar C R (α × β) :=
  zipWith left right Prod.mk

/-- Run two in sequence and keep the value of the first. -/
def seqLeft (left : Grammar C R α) (right : Grammar C R β) : Grammar C R α :=
  (both left right).map Prod.fst

/-- Run two in sequence and keep the value of the second. -/
def seqRight (left : Grammar C R α) (right : Grammar C R β) : Grammar C R β :=
  (both left right).map Prod.snd

/-- Run three in sequence and keep the value of the middle one, which is named first. -/
def between (grammar : Grammar C R α) (left : Grammar C R β) (right : Grammar C R γ) :
    Grammar C R α :=
  seqRight left (seqLeft grammar right)

/-- Run the first of a list that succeeds. -/
def anyOf (grammars : List (Grammar C R α)) : Grammar C R α :=
  any grammars.get

/-- Run the second where the first fails. -/
def or (left right : Grammar C R α) : Grammar C R α :=
  anyOf [left, right]

/-- Consume one or more characters of a class. -/
def chars (accepts : Char → Bool) : Grammar C R String :=
  charSpan accepts accepts

/-- Consume a letter and all letters and digits after it. -/
def identifier : Grammar C R String :=
  label (charSpan Text.isAlphabetic Text.isAlphanumeric) "Expected identifier"

/-- Consume also any whitespace that follows. -/
def spaces (grammar : Grammar C R α) : Grammar C R α :=
  seqLeft grammar whitespace

end Grammar

end ContextParser
