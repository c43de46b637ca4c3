import ContextParser.Fault
import ContextParser.Text.Boundary
import ContextParser.Text.Position

/-!
# States of a parse

A state is a snapshot of a parse: the whole text, a cursor into it, and a context of the user's
choosing. The text never changes during a parse. The context travels by value: whoever wants to
record something hands on a state with another context, and going back to an older state also goes
back to its context.

The cursor counts bytes. In a well-formed state it falls on a character boundary of the text, and
the text is then the consumed characters followed by the remaining ones (`append_of_wellFormed`).
Every way to make or move a state in this module keeps it well-formed.
-/

set_option autoImplicit false

namespace ContextParser

/-- A text, a cursor into it, and a context. -/
structure State (C : Type) where
  /-- The whole text, whatever the cursor. -/
  text : String
  /-- The number of bytes before the cursor. -/
  index : Nat
  /-- What the user has the parse carry along. -/
  context : C
deriving DecidableEq, Repr

namespace State

variable {C D : Type}

/-- The start of a parse of a text. -/
def start (text : String) (context : C) : State C :=
  { text, index := 0, context }

/-- The cursor falls on a character boundary of the text, and so inside it. -/
def WellFormed (s : State C) : Prop :=
  Text.isBoundary s.index s.text.toList = true

instance (s : State C) : Decidable s.WellFormed :=
  inferInstanceAs (Decidable (_ = true))

/-- The characters before the cursor. -/
def consumed (s : State C) : List Char :=
  ((Text.splitAt? s.index s.text.toList).map (·.1)).getD []

/-- The characters after the cursor. -/
def remaining (s : State C) : List Char :=
  ((Text.splitAt? s.index s.text.toList).map (·.2)).getD []

/-- The text that has not been consumed yet. -/
def rest (s : State C) : String :=
  String.ofList s.remaining

/-- Whether the cursor is at the end of the text. -/
def isAtEnd (s : State C) : Bool :=
  s.index == Text.byteLength s.text.toList

/-- The character right after the cursor. -/
def peek (s : State C) : Option Char :=
  s.remaining.head?

/-- The character right before the cursor. -/
def prev (s : State C) : Option Char :=
  s.consumed.getLast?

/-- Move the cursor forward by a number of bytes, which must lead to a character boundary. -/
def advance (s : State C) (length : Nat) : Except Fault (State C) :=
  if Text.isBoundary (s.index + length) s.text.toList then
    .ok { s with index := s.index + length }
  else
    .error (.indexOffBoundary (s.index + length))

/-- Replace the context. -/
def withContext (s : State C) (context : D) : State D :=
  { text := s.text, index := s.index, context }

/-- Replace the context by a function of it. -/
def mapContext (f : C → D) (s : State C) : State D :=
  s.withContext (f s.context)

/-- Line and column of the cursor. -/
def position (s : State C) : Position :=
  Position.locate s.text s.index

/-- The start of a text is a boundary of it. -/
theorem wellFormed_start (text : String) (context : C) : (start text context).WellFormed := by
  simp [WellFormed, start, Text.isBoundary]

/-- At the start the whole text remains. -/
@[simp] theorem remaining_start (text : String) (context : C) :
    (start text context).remaining = text.toList := by
  simp [remaining, start]

/-- At the start nothing has been consumed. -/
@[simp] theorem consumed_start (text : String) (context : C) :
    (start text context).consumed = [] := by
  simp [consumed, start]

/-- Another context leaves the cursor where it is, so on a boundary. -/
theorem wellFormed_withContext {s : State C} (h : s.WellFormed) (context : D) :
    (s.withContext context).WellFormed := h

/-- A changed context leaves the cursor where it is, so on a boundary. -/
theorem wellFormed_mapContext {s : State C} (h : s.WellFormed) (f : C → D) :
    (s.mapContext f).WellFormed := h

/-- The cursor is only ever moved to a boundary, from wherever it was. -/
theorem wellFormed_of_advance {s t : State C} {length : Nat} (h : s.advance length = .ok t) :
    t.WellFormed := by
  rw [advance] at h
  split at h
  · next hb =>
    obtain rfl := Except.ok.inj h
    exact hb
  · simp at h

/-- A well-formed state cuts its text into the consumed and the remaining characters. -/
theorem splitAt?_of_wellFormed {s : State C} (h : s.WellFormed) :
    Text.splitAt? s.index s.text.toList = some (s.consumed, s.remaining) := by
  obtain ⟨⟨front, back⟩, hcut⟩ := Option.isSome_iff_exists.1 h
  simp [consumed, remaining, hcut]

/-- What has been consumed and what remains make up the whole text. -/
theorem append_of_wellFormed {s : State C} (h : s.WellFormed) :
    s.consumed ++ s.remaining = s.text.toList :=
  (Text.splitAt?_eq_some_iff.1 (splitAt?_of_wellFormed h)).1.symm

/-- The cursor counts the bytes of what has been consumed. -/
theorem byteLength_consumed {s : State C} (h : s.WellFormed) :
    Text.byteLength s.consumed = s.index :=
  (Text.splitAt?_eq_some_iff.1 (splitAt?_of_wellFormed h)).2

/-- The position of a well-formed state is the place behind what has been consumed. -/
theorem position_of_wellFormed {s : State C} (h : s.WellFormed) :
    s.position = Position.after s.consumed :=
  Position.locate_of_splitAt? (splitAt?_of_wellFormed h)

end State

end ContextParser
