/-!
Sets of characters, given by ranges of code points. The tables of character properties are such
sets.
-/
namespace Abacus

/-- The characters whose code points lie in one of some closed ranges. -/
structure CharSet where
  ranges : List (Nat × Nat)

namespace CharSet

def contains (s : CharSet) (c : Char) : Bool :=
  s.ranges.any fun range => range.1 ≤ c.toNat && c.toNat ≤ range.2

end CharSet

end Abacus
