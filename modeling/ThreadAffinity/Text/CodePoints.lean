/-!
Sets of characters, given by their code points.

A set is the list of its runs of neighbouring code points, in ascending order. -/

namespace ThreadAffinity.Text

/-- A set of code points: the first and the last of each run. -/
abbrev CodePoints := List (Nat × Nat)

/-- Whether the character is in the set. -/
def CodePoints.has (points : CodePoints) (c : Char) : Bool :=
  points.any fun run => run.1 ≤ c.toNat && c.toNat ≤ run.2

end ThreadAffinity.Text
