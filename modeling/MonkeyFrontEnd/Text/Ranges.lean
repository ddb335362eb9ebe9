/-!
# Sets of characters given by ranges

The Unicode properties that this library asks about are stored as ascending lists of code point
ranges, both ends included.
-/

set_option autoImplicit false

namespace MonkeyFrontEnd.Text

/-- The code point of `c` lies in one of the ranges. -/
def inRanges (ranges : List (Nat × Nat)) (c : Char) : Bool :=
  ranges.any fun r => decide (r.1 ≤ c.toNat) && decide (c.toNat ≤ r.2)

theorem inRanges_iff {ranges : List (Nat × Nat)} {c : Char} :
    inRanges ranges c = true ↔ ∃ r ∈ ranges, r.1 ≤ c.toNat ∧ c.toNat ≤ r.2 := by
  simp [inRanges]

end MonkeyFrontEnd.Text
