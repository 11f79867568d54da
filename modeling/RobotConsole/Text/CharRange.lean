/-!
Sets of characters as lists of ranges.
-/

namespace RobotConsole.Text

/-- Code points from a first to a last one, each pair in ascending order. -/
abbrev CharRanges := List (Nat × Nat)

def CharRanges.holds (ranges : CharRanges) (c : Char) : Bool :=
  ranges.any fun (first, last) => first ≤ c.toNat && c.toNat ≤ last

end RobotConsole.Text
