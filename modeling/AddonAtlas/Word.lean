/-!
Sums of words.

Counts are words of 64 bits. The program does not go on with a sum that is too large for a word: it
stops.
-/

namespace AddonAtlas.Word

/-- The sum of two words, if it is a word. -/
def add? (a b : UInt64) : Option UInt64 :=
  if a.toNat + b.toNat < UInt64.size then some (a + b) else none

/-- The sum of some words, if each sum on the way to it is a word. -/
def sum? (l : List UInt64) : Option UInt64 := l.foldlM add? 0

end AddonAtlas.Word
