import ContextParser.Text.Alphanumeric
import ContextParser.Text.Whitespace

/-!
# Classes of characters

A class is built from the Unicode classes of this library, the decimal digits and sets of single
characters by complement and union.
-/

set_option autoImplicit false

namespace ContextParser

/-- A class of characters. -/
inductive CharClass where
  | alphabetic
  | alphanumeric
  | whitespace
  /-- The decimal digits from 0 to 9. -/
  | digit
  | everything
  | nothing
  | oneOf (members : String)
  | complement (of : CharClass)
  | union (of : List CharClass)

namespace CharClass

mutual

/-- Whether a character belongs to a class. -/
def accepts (c : Char) : CharClass → Bool
  | alphabetic => Text.isAlphabetic c
  | alphanumeric => Text.isAlphanumeric c
  | whitespace => Text.isWhitespace c
  | digit => c.isDigit
  | everything => true
  | nothing => false
  | oneOf members => members.toList.contains c
  | complement of => !accepts c of
  | union of => anyAccepts c of

/-- Whether a character belongs to one of some classes. -/
def anyAccepts (c : Char) : List CharClass → Bool
  | [] => false
  | first :: others => accepts c first || anyAccepts c others

end

end CharClass

end ContextParser
