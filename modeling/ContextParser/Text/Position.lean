import ContextParser.Text.Boundary

/-!
# Positions for people

A position names a place in a text by line and column beside its byte offset. Lines and columns
start at 1, and a column counts characters, whatever number of bytes they take up.
-/

set_option autoImplicit false

namespace ContextParser

/-- A place in a text. -/
structure Position where
  /-- The number of bytes before the place. -/
  offset : Nat
  /-- One more than the number of line feeds before the place. -/
  line : Nat
  /-- One more than the number of characters between the start of the line and the place. -/
  column : Nat
deriving DecidableEq, Repr

namespace Position

/-- The place right after the given characters. -/
def after (front : List Char) : Position where
  offset := Text.byteLength front
  line := front.count '\n' + 1
  column := (front.reverse.takeWhile (· ≠ '\n')).length + 1

/-- The number of bytes up to the end of the last line feed. -/
def lineStart (front : List Char) : Nat :=
  Text.byteLength (front.reverse.dropWhile (· ≠ '\n'))

/-- The place at a byte offset of a text, which is cut there. The part before is cut once more, at
the start of its last line. -/
def ofOffset (text : String) (offset : Nat) : Except Fault Position := do
  let (front, _) ← Text.cut offset text.toList
  let (_, line) ← Text.cut (lineStart front) front
  return { offset, line := front.count '\n' + 1, column := line.length + 1 }

/-- The place at a byte offset of a text. An offset that is no boundary of the text keeps its
number and reads as the start of the first line. -/
def locate (text : String) (offset : Nat) : Position :=
  match ofOffset text offset with
  | .ok position => position
  | .error _ => { offset, line := 1, column := 1 }

/-- A position as it is shown in messages: line, colon, column. -/
def display (position : Position) : String :=
  toString position.line ++ ":" ++ toString position.column

/-- The last line of a text lies between the start of that line and the end of the text. -/
theorem cut_lineStart (front : List Char) :
    Text.cut (lineStart front) front =
      .ok ((front.reverse.dropWhile (· ≠ '\n')).reverse,
        (front.reverse.takeWhile (· ≠ '\n')).reverse) := by
  apply Text.cut_of_splitAt?
  rw [Text.splitAt?_eq_some_iff]
  constructor
  · rw [← List.reverse_append, List.takeWhile_append_dropWhile, List.reverse_reverse]
  · rw [Text.byteLength_reverse, lineStart]

/-- At a boundary both cuts succeed, and the place is the one after the characters before it. -/
theorem ofOffset_of_splitAt? {text : String} {offset : Nat} {front back : List Char}
    (h : Text.splitAt? offset text.toList = some (front, back)) :
    ofOffset text offset = .ok (after front) := by
  have hlen := (Text.splitAt?_eq_some_iff.1 h).2
  simp [ofOffset, Text.cut_of_splitAt? h, cut_lineStart, after, hlen, bind, Except.bind, pure,
    Except.pure]

/-- The place of a boundary is told by the characters before it alone. -/
theorem locate_of_splitAt? {text : String} {offset : Nat} {front back : List Char}
    (h : Text.splitAt? offset text.toList = some (front, back)) :
    locate text offset = after front := by
  rw [locate, ofOffset_of_splitAt? h]

/-- Whatever the text, a position keeps the offset that was asked for. -/
theorem offset_locate (text : String) (offset : Nat) : (locate text offset).offset = offset := by
  cases h : Text.splitAt? offset text.toList with
  | some parts =>
    rw [locate_of_splitAt? h]
    exact (Text.splitAt?_eq_some_iff.1 h).2
  | none => simp [locate, ofOffset, Text.cut, h, bind, Except.bind]

end Position

end ContextParser
