/-!
# Ranges of code points

A class of characters is a list of ranges of code points, ends included.
-/

namespace ApiTypes.Unicode

def inRanges (ranges : List (Nat × Nat)) (code : Nat) : Bool :=
  ranges.any fun r => r.1 ≤ code && code ≤ r.2

end ApiTypes.Unicode
