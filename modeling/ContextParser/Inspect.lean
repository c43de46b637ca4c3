import ContextParser.Outcome
import ContextParser.Text.Quoted

/-!
# Inspection

The inspection of a value is a line of text for whoever looks into a parse. It names the type of a
structure and each of its fields, quotes text, and shows what there is to see of a state: the text,
the cursor and the context.
-/

set_option autoImplicit false

namespace ContextParser

/-- Types whose values can be shown in full. -/
class Inspect (α : Type) where
  /-- The value in full, on one line. -/
  inspect : α → String

export Inspect (inspect)

namespace Inspect

/-- A name with one value after it in parentheses. -/
def wrapped (name payload : String) : String :=
  name ++ "(" ++ payload ++ ")"

/-- A name with named fields after it in braces. -/
def record (name : String) (fields : List (String × String)) : String :=
  name ++ " \x7b " ++ ", ".intercalate (fields.map fun (field, value) => field ++ ": " ++ value) ++
    " \x7d"

/-- Values in parentheses. A single one keeps a comma after it, which tells it from a value that is
only put in parentheses. -/
def tuple : List String → String
  | [item] => "(" ++ item ++ ",)"
  | items => "(" ++ ", ".intercalate items ++ ")"

/-- Values in brackets. -/
def list (items : List String) : String :=
  "[" ++ ", ".intercalate items ++ "]"

/-- Values in braces. A set has no order of its own, so its items are shown in the order of their
texts, character by character. -/
def set (items : List String) : String :=
  "\x7b" ++ ", ".intercalate (items.mergeSort fun a b => decide (a ≤ b)) ++ "\x7d"

variable {C α β ε : Type}

instance : Inspect Unit where
  inspect _ := "()"

instance : Inspect String where
  inspect := Text.quoted

instance [Inspect α] [Inspect β] : Inspect (α × β) where
  inspect pair := tuple [inspect pair.1, inspect pair.2]

instance : Inspect Position where
  inspect position :=
    record "Position"
      [("offset", toString position.offset), ("line", toString position.line),
        ("column", toString position.column)]

instance [Inspect C] : Inspect (State C) where
  inspect state :=
    record "State"
      [("text", inspect state.text), ("index", toString state.index),
        ("context", inspect state.context)]

instance [Inspect C] [Inspect α] : Inspect (Success C α) where
  inspect r := record "Success" [("state", inspect r.state), ("value", inspect r.value)]

instance [Inspect C] : Inspect (Failure C) where
  inspect e :=
    record "Failure"
      [("kind", e.kind.name), ("message", inspect e.message), ("state", inspect e.state)]

instance : Inspect ParseError where
  inspect e :=
    record "ParseError"
      [("kind", e.kind.name), ("message", inspect e.message), ("position", inspect e.position)]

instance [Inspect ε] [Inspect α] : Inspect (Outcome ε α) where
  inspect
    | .success answer => wrapped "Ok" (inspect answer)
    | .failure error => wrapped "Err" (inspect error)
    | .fault cause => cause.message

/-- The parser that fails with a message. -/
def failing (message : String) : String :=
  wrapped "Fail" (inspect message)

/-- The parser that yields a value. -/
def succeeding [Inspect α] (value : α) : String :=
  wrapped "Succeed" (inspect value)

end Inspect

end ContextParser
