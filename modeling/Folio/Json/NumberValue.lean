import Folio.Json.Lexeme
import Folio.Number.Rounding

/-!
# Values of written numbers

A written number is read as the double nearest to its digits, multiplied or divided by the double
nearest to its power of ten. Digits beyond those that fit 64 bits count only by their places. A
number too large for a double has no value; one too small is zero.
-/

namespace Folio

/-- The greatest exponent whose power of ten is a double. -/
def greatestPower : Nat := 308

/-- The double nearest to a power of ten. -/
def Number.powerOfTen (exponent : Nat) : Number := Number.ofNat (Nat.pow 10 exponent)

/-- A double scaled by a power of ten, step by step where the power is no double itself. -/
def Number.scale? (n : Number) (exponent : Int) : Option Number :=
  if greatestPower < exponent then (if n.isZero then some n else none)
  else if 0 ≤ exponent then
    let scaled := n.mul (powerOfTen exponent.toNat)
    if scaled.isFinite then some scaled else none
  else if -(greatestPower : Int) ≤ exponent then some (n.div (powerOfTen (-exponent).toNat))
  else if -(2 * greatestPower : Int) ≤ exponent then
    let down := n.div (powerOfTen greatestPower)
    some (down.div (powerOfTen (-exponent - greatestPower).toNat))
  else some .zero

namespace Json.NumberText

/-- The number that the leading digits stand for and how many they are, as far as the number fits
64 bits. -/
def leading (value count : Nat) : List Char → Nat × Nat
  | [] => (value, count)
  | c :: rest =>
    let next := 10 * value + (c.toNat - '0'.toNat)
    if next < UInt64.size then leading next (count + 1) rest else (value, count)

/-- The double that a written number is read as. -/
def number? (n : NumberText) : Option Number :=
  let (value, count) := leading 0 0 (n.whole ++ n.fraction)
  let exponent := n.exponent.getD 0 + n.whole.length - count
  ((Number.ofNat value).scale? exponent).map fun x => if n.negative then x.neg else x

/-- The natural number below `2 ^ 64` that is written without sign, point or exponent. -/
def natural? (n : NumberText) : Option Nat :=
  let value := digitsValue n.whole
  if !n.negative && n.fraction.isEmpty && n.exponent.isNone && value < UInt64.size then some value
  else none

end Json.NumberText

end Folio
