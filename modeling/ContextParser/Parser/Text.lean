import ContextParser.Parser.Choice
import ContextParser.Text.Alphanumeric
import ContextParser.Text.Whitespace

/-!
# Parsers of text

Each of these looks at the state and decides how many bytes to consume. Letters, digits and
whitespace are those of Unicode.
-/

set_option autoImplicit false

namespace ContextParser.Parser

variable {C α : Type}

/-- Consume exactly the given text, and yield it. -/
def literal (text : String) : Parser C String :=
  map
    (when
      (fun s =>
        if text.toList.isPrefixOf s.remaining then some (Text.byteLength text.toList) else none)
      ("Expected \"" ++ text ++ "\""))
    fun _ => text

/-- Whether the cursor is at an end of the text, or between two characters of which exactly one is a
letter or digit. -/
def isAtWordBoundary (s : State C) : Bool :=
  match s.prev, s.peek with
  | some before, some after => Text.isAlphanumeric before != Text.isAlphanumeric after
  | _, _ => true

/-- Succeed at a word boundary only, without consuming anything. -/
def wordBoundary : Parser C Unit :=
  when (fun s => if isAtWordBoundary s then some 0 else none) "Expected word boundary"

/-- Consume as much whitespace as there is. This never fails. -/
def whitespace : Parser C Unit :=
  when (fun s => some (Text.byteLength (s.remaining.takeWhile Text.isWhitespace)))
    "Expected whitespace"

/-- Consume one whitespace character. -/
def whitespaceChar : Parser C Unit :=
  when (fun s => (s.peek.filter Text.isWhitespace).map Char.utf8Size) "Expected whitespace"

/-- The length of a character of the first class with as many of the second class after it as there
are, if the characters start with one of the first. -/
def spanLength (initial following : Char → Bool) : List Char → Option Nat
  | [] => none
  | c :: cs =>
    if initial c then some (c.utf8Size + Text.byteLength (cs.takeWhile following)) else none

/-- Consume a character of one class and as many of another class after it as there are, and yield
the consumed text. -/
def charSpan (initial following : Char → Bool) : Parser C String :=
  map (withText (when (fun s => spanLength initial following s.remaining) "Expected character"))
    Prod.snd

/-- Consume one or more characters of a class, and yield the consumed text. -/
def chars (accepts : Char → Bool) : Parser C String :=
  charSpan accepts accepts

/-- Consume a letter and all letters and digits after it, and yield the consumed text. -/
def identifier : Parser C String :=
  label (charSpan Text.isAlphabetic Text.isAlphanumeric) "Expected identifier"

/-- Consume exactly the given text where a word boundary follows it, and yield it. -/
def keyword (text : String) : Parser C String :=
  seqLeft (literal text) wordBoundary

/-- Run a parser, then consume any whitespace after it. -/
def spaces (p : Parser C α) : Parser C α :=
  seqLeft p whitespace

end ContextParser.Parser
