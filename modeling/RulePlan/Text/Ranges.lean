/-
  RulePlan.Text.Ranges — classes of characters as ranges of code points.

  A class is a list of inclusive ranges in ascending order, so a search for a code
  point ends at the first range that begins after it.
-/

namespace RulePlan.Text

/-- Membership in ranges that are listed in ascending order. -/
def inRanges (n : Nat) : List (Nat × Nat) → Bool
  | [] => false
  | (first, last) :: rest => if n < first then false else if n ≤ last then true else inRanges n rest

end RulePlan.Text
