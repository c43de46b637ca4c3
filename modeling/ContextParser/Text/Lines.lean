/-!
# Lines of a text

A line ends at a line feed, or at a carriage return followed by a line feed; neither belongs to the
line. The last line needs no end, and a text that ends with a line end has no empty line after it.
-/

set_option autoImplicit false

namespace ContextParser.Text

/-- The lines of a list of characters, without their ends. -/
def splitLines : List Char → List (List Char)
  | [] => []
  | '\r' :: '\n' :: cs => [] :: splitLines cs
  | '\n' :: cs => [] :: splitLines cs
  | c :: cs =>
    match splitLines cs with
    | [] => [[c]]
    | line :: lines => (c :: line) :: lines

/-- The lines of a text, without their ends. -/
def lines (text : String) : List String :=
  (splitLines text.toList).map String.ofList

end ContextParser.Text
