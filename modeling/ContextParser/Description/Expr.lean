import ContextParser.Description.Value
import ContextParser.State

/-!
# Expressions

The functions inside a described grammar are expressions over dynamic values. An expression reads
variables and, where it looks at a parse in progress, properties of the current state.

Evaluation is total. An operand of the wrong kind counts as the zero, the empty text, the empty
list or the false of the kind that is asked for, and a missing variable, property or item as the
unit value. Where a list is asked for, a tuple will do.
-/

set_option autoImplicit false

namespace ContextParser

/-- What an expression can ask of the current state. -/
inductive Property where
  | index
  | rest
  | text
  | atEnd
  | peek
  | prev
  | context
  | line
  | column
deriving DecidableEq, Repr

namespace Property

/-- A single character as a text value. -/
def charValue (c : Char) : Value :=
  .text (String.ofList [c])

/-- A property of a state. -/
def read (state : State Value) : Property → Value
  | index => .int state.index
  | rest => .text state.rest
  | text => .text state.text
  | atEnd => .bool state.isAtEnd
  | peek => .ofOption (state.peek.map charValue)
  | prev => .ofOption (state.prev.map charValue)
  | context => state.context
  | line => .int state.position.line
  | column => .int state.position.column

end Property

/-- Operations on one value. -/
inductive UnaryOp where
  /-- The number of bytes of a text, or of items of a list. -/
  | length
  /-- The number of characters of a text. -/
  | charCount
  | sum
  | product
  /-- The decimal digits of an integer. -/
  | digits
  /-- The number that up to 18 decimal digits stand for, if the text is nothing else. -/
  | number
  | reverse
  | not
  | some
deriving DecidableEq, Repr

namespace UnaryOp

/-- The number that some decimal digits stand for. -/
def ofDigits (digits : List Char) : Nat :=
  digits.foldl (fun n c => 10 * n + (c.toNat - '0'.toNat)) 0

/-- Read a text of 1 to 18 decimal digits. -/
def number? (text : String) : Option Int :=
  let digits := text.toList
  if digits ≠ [] ∧ digits.length ≤ 18 ∧ digits.all Char.isDigit then
    Option.some (ofDigits digits)
  else
    none

/-- Apply an operation to a value. -/
def apply : UnaryOp → Value → Value
  | length, .text text => .int (Text.byteLength text.toList)
  | length, value => .int value.items.length
  | charCount, value => .int value.toText.toList.length
  | sum, value => .int ((value.items.map Value.toInt).foldl (· + ·) 0)
  | product, value => .int ((value.items.map Value.toInt).foldl (· * ·) 1)
  | digits, value => .text (toString value.toInt)
  | number, value => .ofOption ((number? value.toText).map Value.int)
  | reverse, value => .list value.items.reverse
  | not, value => .bool !value.toBool
  | some, value => .some value

end UnaryOp

/-- Operations on two values. -/
inductive BinaryOp where
  | add
  | sub
  | mul
  /-- Lay the texts of a list end to end, with a text between each two. -/
  | join
  /-- Lay a text end to end with itself a number of times. -/
  | replicate
  /-- Put an item at the end of a list. -/
  | push
  /-- The item of a list at a place, where the first place is 0. -/
  | get
  /-- Whether a list has an item. -/
  | has
  /-- The value inside an optional value, or another one where there is none. -/
  | getOrElse
  | equal
  | less
deriving DecidableEq, Repr

namespace BinaryOp

/-- Apply an operation to two values. -/
def apply : BinaryOp → Value → Value → Value
  | add, a, b => .int (a.toInt + b.toInt)
  | sub, a, b => .int (a.toInt - b.toInt)
  | mul, a, b => .int (a.toInt * b.toInt)
  | join, a, b => .text (b.toText.intercalate (a.items.map Value.toText))
  | replicate, a, b => .text (String.join (List.replicate b.toInt.toNat a.toText))
  | push, a, b => .list (a.items ++ [b])
  | get, a, b => (a.items[b.toInt.toNat]?).getD .unit
  | has, a, b => .bool (a.items.contains b)
  | getOrElse, .some a, _ => a
  | getOrElse, _, b => b
  | equal, a, b => .bool (a = b)
  | less, a, b => .bool (a.toInt < b.toInt)

end BinaryOp

/-- Expressions over dynamic values. -/
inductive Expr where
  | constant (value : Value)
  | var (name : String)
  | property (asked : Property)
  | list (items : List Expr)
  | tuple (items : List Expr)
  /-- Lay texts end to end. -/
  | concat (items : List Expr)
  | unary (op : UnaryOp) (operand : Expr)
  | binary (op : BinaryOp) (left right : Expr)
  | cond (condition yes no : Expr)
deriving Inhabited

/-- What an expression can refer to. -/
structure Scope where
  /-- The variables and their values, the innermost first. -/
  bindings : List (String × Value) := []
  /-- The current state, where there is one. -/
  state : Option (State Value) := none

namespace Expr

mutual

/-- The value of an expression. -/
def eval (scope : Scope) : Expr → Value
  | constant value => value
  | var name => (scope.bindings.lookup name).getD .unit
  | property asked => (scope.state.map asked.read).getD .unit
  | list items => .list (evalItems scope items)
  | tuple items => .tuple (evalItems scope items)
  | concat items => .text (String.join ((evalItems scope items).map Value.toText))
  | unary op operand => op.apply (eval scope operand)
  | binary op left right => op.apply (eval scope left) (eval scope right)
  | cond condition yes no =>
    if (eval scope condition).toBool then eval scope yes else eval scope no

/-- The values of some expressions. -/
def evalItems (scope : Scope) : List Expr → List Value
  | [] => []
  | item :: items => eval scope item :: evalItems scope items

end

end Expr

end ContextParser
