import Folio.Number.Rounding

/-!
# The 64-bit interchange form

A double is exchanged as 64 bits: a sign bit, eleven bits of exponent and 52 bits of fraction.
Exponent 0 counts units, exponent `e > 0` counts steps of `2 ^ (e - 1)` units with a leading bit
that is not written, and the greatest exponent is kept for infinities and not-a-number.
-/

namespace Folio.Number

/-- The number of fraction patterns. -/
def fractionCount : Nat := Nat.pow 2 52

/-- The number of patterns without the sign bit. -/
def signPlace : Nat := Nat.pow 2 63

/-- The exponent of infinities and not-a-number. -/
def topExponent : Nat := 2047

/-- The double that the 64 bits stand for. -/
def ofBits (bits : UInt64) : Number :=
  let negative := signPlace ≤ bits.toNat
  let exponent := bits.toNat / fractionCount % (topExponent + 1)
  let fraction := bits.toNat % fractionCount
  if exponent = topExponent then (if fraction = 0 then .infinity negative else .nan)
  else if exponent = 0 then ofUnits negative fraction 1
  else ofUnits negative ((fractionCount + fraction) * Nat.pow 2 (exponent - 1)) 1

/-- The bits of a magnitude: steps of the grid carry the leading bit into the exponent. -/
def magnitudeBits (units : Nat) : Nat :=
  (units.log2 - 52) * fractionCount + units / gridStep units

/-- The 64 bits of a double; not-a-number has the quiet pattern without sign or payload. -/
def toBits : Number → UInt64
  | .nan => (topExponent * fractionCount + fractionCount / 2).toUInt64
  | .infinity negative => (negative.toNat * signPlace + topExponent * fractionCount).toUInt64
  | .finite negative units _ => (negative.toNat * signPlace + magnitudeBits units).toUInt64

end Folio.Number
