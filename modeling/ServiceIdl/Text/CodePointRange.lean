/-!
# Ranges of code points

Character properties of the Unicode Standard, version 17.0, are given by lists
of ranges that leave out the ASCII characters, which have simple rules.
-/

namespace ServiceIdl

/-- Tells whether a character lies in one of the ranges, whose ends both belong
to them. -/
def inRanges (ranges : List (Nat × Nat)) (c : Char) : Bool :=
  ranges.any fun (first, last) => first ≤ c.toNat && c.toNat ≤ last

end ServiceIdl
