/-!
# Faults

A fault is a breach of the rules by whoever uses the library, not a property of the text that is
parsed: a length, an index or a cut that does not fall on a character boundary, or a budget too
small for the run. A parse failure makes room for another attempt; a fault ends the run.
-/

set_option autoImplicit false

namespace ContextParser

/-- Why a run was ended before the parser could answer. -/
inductive Fault where
  /-- A predicate asked to consume a length that leads past the end of the text or into the middle
  of a character. -/
  | lengthOffBoundary (length : Nat)
  /-- A cursor was to be moved to an index that is past the end of the text or inside a
  character. -/
  | indexOffBoundary (index : Nat)
  /-- A text was to be cut at an index that is past its end or inside a character. -/
  | cutOffBoundary (index : Nat)
  /-- A loop or a recursion went on for longer than its budget allows. -/
  | outOfBudget
deriving DecidableEq, Repr

namespace Fault

/-- What is told about a fault. -/
def message : Fault → String
  | lengthOffBoundary length =>
    "`when` predicate returned length " ++ toString length ++
      ", which is past the end of the text or inside a character"
  | indexOffBoundary index =>
    "cannot advance to byte " ++ toString index ++ ": not a char boundary of the text"
  | cutOffBoundary index =>
    "cannot cut at byte " ++ toString index ++ ": not a char boundary of the text"
  | outOfBudget => "the budget of the run is used up"

end Fault

end ContextParser
