import Folio.Number.Rounding

/-!
# Decimals

A decimal is a natural number times a power of ten. Reading one rounds it to the nearest double.
Writing a double looks for the coarsest decimal grid that has a point among the reals rounding to
the double, and takes the point nearest to the double on it: the fewest digits that read back.
-/

namespace Folio

/-- The number `digits * 10 ^ exponent`. -/
structure Decimal where
  digits : Nat
  exponent : Int
  deriving DecidableEq

/-- How a number halfway between two decimals of equal length is written. -/
inductive Tie where
  | up
  | toEven
  deriving DecidableEq

namespace Decimal

/-- A power of ten as a ratio of whole numbers. -/
def power (exponent : Int) : Nat × Nat :=
  if 0 ≤ exponent then (Nat.pow 10 exponent.toNat, 1) else (1, Nat.pow 10 (-exponent).toNat)

/-- The digits of a natural number, most significant first. -/
def digitChars (n : Nat) : List Char := Nat.toDigits 10 n

/-- One more than the exponent of the leading digit of a nonzero decimal. -/
def pointPlace (d : Decimal) : Int := (digitChars d.digits).length + d.exponent

end Decimal

namespace Number

/-- The double nearest to a decimal. Decimals too large or too small for any double are told by
their leading digit alone. -/
def ofDecimal (negative : Bool) (d : Decimal) : Number :=
  if d.digits = 0 then signedZero negative
  else if 310 < d.pointPlace then .infinity negative
  else if d.pointPlace < -330 then signedZero negative
  else ofRatio negative (d.digits * (Decimal.power d.exponent).1) (Decimal.power d.exponent).2

/-- The reals that round to a magnitude, in quarters of a unit: from the middle of the gap below to
the middle of the gap above. -/
structure RoundingInterval where
  low : Nat
  high : Nat
  /-- Whether the ends round to the magnitude too. -/
  closed : Bool

namespace RoundingInterval

/-- The interval of a nonzero magnitude. Below a power of two the gap is half a step. -/
def ofUnits (units : Nat) : RoundingInterval :=
  let step := gridStep units
  { low := 4 * units - (if units = Nat.pow 2 52 * step ∧ 1 < step then step else 2 * step)
    high := 4 * units + 2 * step
    closed := units / step % 2 == 0 }

/-- Whether the interval holds `c * 10 ^ exponent`. -/
def contains (i : RoundingInterval) (exponent : Int) (c : Nat) : Bool :=
  let (up, down) := Decimal.power exponent
  let place := 4 * c * up * unitsPerOne
  if i.closed then i.low * down ≤ place && place ≤ i.high * down
  else i.low * down < place && place < i.high * down

end RoundingInterval

/-- The multiple of `10 ^ exponent` that rounds to the magnitude and is nearest to it. -/
def onGrid? (tie : Tie) (units : Nat) (exponent : Int) : Option Nat :=
  let (up, down) := Decimal.power exponent
  let whole := units * down
  let part := up * unitsPerOne
  let below := whole / part
  let left := whole % part
  let interval := RoundingInterval.ofUnits units
  let chooseAbove := part < 2 * left ∨ (part = 2 * left ∧ (tie = .up ∨ below % 2 = 1))
  match interval.contains exponent below, interval.contains exponent (below + 1) with
  | true, true => some (if chooseAbove then below + 1 else below)
  | true, false => some below
  | false, true => some (below + 1)
  | false, false => none

/-- The first decimal found on the grids from `10 ^ exponent` downwards, and the exact decimal if
none is found on the given number of grids. -/
def firstOnGrid (tie : Tie) (units : Nat) : Nat → Int → Decimal
  | 0, _ => ⟨units * Nat.pow 5 1074, -1074⟩
  | grids + 1, exponent =>
    match onGrid? tie units exponent with
    | some c => ⟨c, exponent⟩
    | none => firstOnGrid tie units grids (exponent - 1)

/-- An exponent above that of the leading digit of a magnitude. -/
def exponentAbove (units : Nat) : Int :=
  ((units.log2 : Int) - 1073) * 30103 / 100000 + 2

/-- The decimal with the fewest digits that reads back as the magnitude, and of those the nearest.
Seventeen digits always suffice, so the search ends well within forty grids. -/
def shortest (tie : Tie) (units : Nat) : Decimal :=
  firstOnGrid tie units 40 (exponentAbove units)

end Number

end Folio
