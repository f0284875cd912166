/-!
# Ranges of code points

A class of characters is given by ranges of code points in rising order, both ends included.
-/

namespace FragmentHost.CharClass

/-- The character lies in one of the ranges. -/
def within (ranges : List (Nat × Nat)) (c : Char) : Bool :=
  ranges.any fun r => r.1 ≤ c.toNat && c.toNat ≤ r.2

end FragmentHost.CharClass
