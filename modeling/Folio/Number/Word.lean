import Folio.Number.Rounding

/-!
# Thirty-two bit words

A number stands for a 32-bit word: its part below one is dropped, what is left is divided by `2 ^ 32`
with a remainder that is not negative, and the remainder is the word. All of this is arithmetic on
doubles. A number without a whole part stands for zero. Bitwise operators act on these words. A word
reads back signed, except after a shift that fills with zeros.
-/

namespace Folio.Number

/-- The whole number that is left when the part below one is dropped; a zero keeps its sign. -/
def dropFraction : Number → Number
  | .finite negative units _ => ofRatio negative (wholePart units) 1
  | x => x

/-- Remainder that is not negative: where that of the division that truncates is, the magnitude of
the divisor is added to it. -/
def remEuclid (x y : Number) : Number :=
  let left := x.rem y
  if left.compare? .zero = some .lt then left.add y.abs else left

/-- The whole part as an unsigned word. Negative numbers give the least word, as not-a-number does,
and numbers beyond the greatest word give that one. -/
def saturated (x : Number) : Nat := min (wholePart x.rank.toNat) (Nat.pow 2 32 - 1)

/-- The number of words. -/
def wordCount : Number := ofNat (Nat.pow 2 32)

/-- The word of the number, as an unsigned whole number below `2 ^ 32`. -/
def toUint32 (x : Number) : Nat :=
  if x.isFinite then (x.dropFraction.remEuclid wordCount).saturated else 0

/-- The word of the number. -/
def word (x : Number) : BitVec 32 := BitVec.ofNat 32 x.toUint32

/-- The word as a signed whole number, from `-2 ^ 31` up to `2 ^ 31 - 1`. -/
def toInt32 (x : Number) : Int := x.word.toInt

/-- The number of places to shift by: the word modulo 32. -/
def shiftCount (x : Number) : Nat := x.toUint32 % 32

/-- Bitwise or. -/
def bitOr (x y : Number) : Number := ofInt (x.word ||| y.word).toInt

/-- Bitwise and. -/
def bitAnd (x y : Number) : Number := ofInt (x.word &&& y.word).toInt

/-- Bitwise exclusive or. -/
def bitXor (x y : Number) : Number := ofInt (x.word ^^^ y.word).toInt

/-- Bitwise complement. -/
def bitNot (x : Number) : Number := ofInt (~~~x.word).toInt

/-- Shift to the left. -/
def shiftLeft (x y : Number) : Number := ofInt (x.word <<< y.shiftCount).toInt

/-- Shift to the right that repeats the sign bit. -/
def shiftRight (x y : Number) : Number := ofInt (x.word.sshiftRight y.shiftCount).toInt

/-- Shift to the right that fills with zeros; the result is unsigned. -/
def shiftRightZeroFill (x y : Number) : Number := ofNat (x.word >>> y.shiftCount).toNat

end Folio.Number
