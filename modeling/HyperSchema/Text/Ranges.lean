/-!
# Ranges of code points

Character classes that a standard gives as a table.  This file defines:

* `Text.Ranges`, a table of closed ranges of code points;
* `Ranges.holds`, membership of a character.

The tables themselves are in the modules named for the properties.
-/

namespace HyperSchema.Text

/-- Closed ranges of code points, in ascending order. -/
abbrev Ranges := List (Nat × Nat)

/-- Whether a code point lies in one of the ranges.  The order of the table ends the search. -/
def Ranges.holds : Ranges → Nat → Bool
  | [], _ => false
  | (low, high) :: rest, n => if n < low then false else n ≤ high || holds rest n

end HyperSchema.Text
