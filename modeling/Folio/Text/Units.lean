/-!
# UTF-16 code units

Texts are measured and ordered by their UTF-16 code units: a character above `U+FFFF` counts as
two units, a high and a low surrogate, and sorts by the high one.
-/

namespace Folio.Text

/-- The least code point that takes two code units. -/
def firstPair : Nat := 0x10000

/-- The code units of a character. -/
def charUnits (c : Char) : List Nat :=
  if c.toNat < firstPair then [c.toNat]
  else [0xD800 + (c.toNat - firstPair) / 0x400, 0xDC00 + (c.toNat - firstPair) % 0x400]

/-- The code units of a text. -/
def units (text : String) : List Nat := text.toList.flatMap charUnits

/-- The number of code units of a text. -/
def unitCount (text : String) : Nat := (units text).length

/-- The order of texts by their code units; a proper initial part is smaller. -/
def compareUnits (a b : String) : Ordering := List.compareLex compare (units a) (units b)

end Folio.Text
