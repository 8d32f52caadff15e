/-!
Sets of code points, written as the increasing list of the points where membership changes.
-/

namespace MountControl

/-- A set of code points; the bounds are where it begins and ends in turn. -/
structure CodePointSet where
  bounds : List Nat

namespace CodePointSet

def contains (s : CodePointSet) (c : Char) : Bool :=
  (s.bounds.takeWhile (· ≤ c.toNat)).length % 2 == 1

end CodePointSet

end MountControl
