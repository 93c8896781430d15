/-! # Ranges of code points

Character classes are given by the ranges of code points that belong to them, in ascending
order.  The tables follow the fourteenth edition of the character database.
-/

namespace FieldRules.Text

/-- The code points from the first to the second component, both included. -/
abbrev CodeRange := Nat × Nat

/-- Whether a code point lies in one of the ranges. -/
def CodeRange.anyCovers (ranges : List CodeRange) (code : Nat) : Bool :=
  ranges.any fun range => range.1 ≤ code && code ≤ range.2

end FieldRules.Text
