import ContextParser.Text.Unprintable

/-!
# Quoted text

Quoted text stands between double quotes. The double quote and the backslash are written after a
backslash, the null character, tab, carriage return and line feed by a letter after a backslash, and
every other control or unprintable character by its code point in lower-case hexadecimal digits.
All else, the single quote included, stands for itself.
-/

set_option autoImplicit false

namespace ContextParser.Text

/-- Whether a character is a control character: one of the first 32, or of the 33 from delete on. -/
def isControl (c : Char) : Bool :=
  c.toNat < 0x20 || (0x7f ≤ c.toNat && c.toNat < 0xa0)

/-- A character by its code point, between braces after a backslash and the letter u. -/
def escapeByNumber (c : Char) : List Char :=
  '\\' :: 'u' :: '\x7b' :: (Nat.toDigits 16 c.toNat ++ ['\x7d'])

/-- A character as it is written inside quoted text. -/
def escape (c : Char) : List Char :=
  if c = '"' then ['\\', '"']
  else if c = '\\' then ['\\', '\\']
  else if c = '\x00' then ['\\', '0']
  else if c = '\t' then ['\\', 't']
  else if c = '\r' then ['\\', 'r']
  else if c = '\n' then ['\\', 'n']
  else if isControl c || isUnprintable c then escapeByNumber c
  else [c]

/-- A text between double quotes, with its characters escaped. -/
def quoted (text : String) : String :=
  String.ofList ('"' :: (text.toList.flatMap escape ++ ['"']))

end ContextParser.Text
