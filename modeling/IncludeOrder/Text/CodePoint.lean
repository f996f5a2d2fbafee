/-!
# Text: sets of code points

A class of characters is given by a list of closed ranges of code points.  `inRanges` decides
membership by comparing numbers only, so that a class is a table (data) and a question about one
character is settled by evaluation.
-/

set_option autoImplicit false

namespace IncludeOrder.Text

/-- The code point lies in one of the closed ranges. -/
def inRanges (ranges : List (Nat × Nat)) (n : Nat) : Bool :=
  ranges.any fun range => range.1 ≤ n && n ≤ range.2

end IncludeOrder.Text
