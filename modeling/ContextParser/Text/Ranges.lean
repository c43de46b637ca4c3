/-!
# Ranges of code points

A class of characters is given by the ranges of its code points: pairs of a first and a last
number, both included, in ascending order.
-/

set_option autoImplicit false

namespace ContextParser.Text

/-- Whether a number lies in one of the ranges. The ranges ascend, so the search ends at the first
one that starts beyond the number. -/
def inRanges : List (Nat × Nat) → Nat → Bool
  | [], _ => false
  | (first, last) :: ranges, n =>
    if n < first then false else if n ≤ last then true else inRanges ranges n

end ContextParser.Text
