import ContextParser.Parser.Text
import ContextParser.Proofs.Simulation.Parser

/-!
# Parsers of text under simulations

Most parsers of text look at the characters before the cursor and at nothing else. They do the same
from two states that have the same characters before them, whatever these states differ in besides.
So a simulation of `when` between such states is all it takes to simulate these parsers. The one
that also looks back is `wordBoundary`; it is left to the simulations under which it can be.
-/

set_option autoImplicit false

namespace ContextParser.Simulation

variable {C D : Type}

/-- The two runs have the same characters before them, and predicates that cannot tell the two
states apart consume the same of them. -/
structure SeesAhead (S : Simulation C D) : Prop where
  remaining_eq : ∀ {s t}, S.states s t → s.remaining = t.remaining
  isAtEnd_eq : ∀ {s t}, S.states s t → s.isAtEnd = t.isAtEnd
  simulates_when : ∀ {predicate : State C → Option Nat} {predicate' : State D → Option Nat}
    (message : String), (∀ s t, S.states s t → predicate s = predicate' t) →
      S.Simulates (Parser.when predicate message) (Parser.when predicate' message)

namespace SeesAhead

variable {S : Simulation C D} (hS : S.SeesAhead)

include hS

/-- The end of the text is seen in both runs or in neither. -/
theorem simulates_endOfText : S.Simulates Parser.endOfText Parser.endOfText := by
  apply hS.simulates_when
  intro s t hst
  rw [hS.isAtEnd_eq hst]

/-- A fixed text comes next in both runs or in neither. -/
theorem simulates_literal (text : String) :
    S.Simulates (Parser.literal text) (Parser.literal text) := by
  refine simulates_map (hS.simulates_when _ ?_) _
  intro s t hst
  rw [hS.remaining_eq hst]

/-- Both runs consume the same whitespace. -/
theorem simulates_whitespace : S.Simulates Parser.whitespace Parser.whitespace := by
  apply hS.simulates_when
  intro s t hst
  rw [hS.remaining_eq hst]

/-- Both runs consume the same whitespace character, or fail for want of one. -/
theorem simulates_whitespaceChar : S.Simulates Parser.whitespaceChar Parser.whitespaceChar := by
  apply hS.simulates_when
  intro s t hst
  rw [State.peek, State.peek, hS.remaining_eq hst]

/-- Both runs consume the same span, or fail for want of a first character. -/
theorem simulates_charSpan (initial following : Char → Bool) :
    S.Simulates (Parser.charSpan initial following) (Parser.charSpan initial following) := by
  refine simulates_map (simulates_withText (hS.simulates_when _ ?_)) _
  intro s t hst
  rw [hS.remaining_eq hst]

end SeesAhead

end ContextParser.Simulation
