/-!
# Sets of characters

A property of characters is written as a list of ranges of code points in increasing order.
-/

namespace Folio.Text

/-- Ranges of code points, each with its two ends, in increasing order. -/
abbrev Ranges := List (Nat × Nat)

/-- Whether some range holds the character. -/
def Ranges.contains (ranges : Ranges) (c : Char) : Bool :=
  ranges.any fun (first, last) => first ≤ c.toNat && c.toNat ≤ last

end Folio.Text
