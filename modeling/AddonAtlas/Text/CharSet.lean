/-!
Sets of characters given by the code points at which membership changes.
-/

namespace AddonAtlas.Text

/-- The sorted code points at which a walk through all characters enters or leaves the set. -/
structure CharSet where
  changes : Array Nat

namespace CharSet

/-- How many of the sorted entries from `lo` to `hi` are at most `x`, counted from the start. -/
def countLe (a : Array Nat) (x : Nat) (lo hi : Nat) : Nat :=
  if lo < hi then
    let mid := (lo + hi) / 2
    if a.getD mid 0 ≤ x then countLe a x (mid + 1) hi else countLe a x lo mid
  else lo
termination_by hi - lo

/-- A character is in the set when an odd number of changes lies at or before it. -/
def contains (s : CharSet) (c : Char) : Bool :=
  countLe s.changes c.toNat 0 s.changes.size % 2 == 1

end CharSet

end AddonAtlas.Text
