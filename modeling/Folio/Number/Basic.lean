/-!
# Double precision numbers

A finite double is a whole number of units of `2 ^ (-1074)`, the gap between the two smallest
doubles. Kept as that whole number, a finite double is compared, truncated and rounded by exact
integer arithmetic. The grid step of a magnitude is the gap between its neighbours among the
doubles, so a magnitude is a double exactly when it is small enough and divisible by its step.
-/

namespace Folio

/-- The number of units in one. -/
def unitsPerOne : Nat := Nat.pow 2 1074

/-- The least magnitude, in units, that is too large for a finite double. -/
def magnitudeLimit : Nat := Nat.pow 2 2098

/-- The gap between neighbouring doubles at a magnitude given in units: a power of two, and one
unit for every magnitude below `2 ^ 53` units. -/
def gridStep (units : Nat) : Nat := Nat.pow 2 (units.log2 - 52)

/-- A magnitude in units that a finite double has. -/
def Representable (units : Nat) : Prop := units < magnitudeLimit ∧ gridStep units ∣ units

/-- Representability is decided by one comparison and one division. -/
instance (units : Nat) : Decidable (Representable units) :=
  inferInstanceAs (Decidable (_ ∧ _))

/-- A double. Zero has two signs; there is one not-a-number. -/
inductive Number where
  | nan
  | infinity (negative : Bool)
  | finite (negative : Bool) (units : Nat) (representable : Representable units)
  deriving DecidableEq

namespace Number

/-- Zero is a number of units. -/
theorem representable_zero : Representable 0 := by decide +kernel

/-- Positive zero. -/
def zero : Number := .finite false 0 representable_zero

/-- Zero with the given sign. -/
def signedZero (negative : Bool) : Number := .finite negative 0 representable_zero

instance : Inhabited Number := ⟨zero⟩

/-- Whether the number is not a number. -/
def isNaN : Number → Bool
  | .nan => true
  | _ => false

/-- Whether the number is neither infinite nor not a number. -/
def isFinite : Number → Bool
  | .finite .. => true
  | _ => false

/-- Whether the number is a zero of either sign. -/
def isZero : Number → Bool
  | .finite _ units _ => units == 0
  | _ => false

/-- Whether the sign bit is set; not-a-number has none. -/
def isNegative : Number → Bool
  | .nan => false
  | .infinity negative => negative
  | .finite negative _ _ => negative

/-- The number with the opposite sign. -/
def neg : Number → Number
  | .nan => .nan
  | .infinity negative => .infinity !negative
  | .finite negative units h => .finite (!negative) units h

/-- The number without its sign. -/
def abs : Number → Number
  | .nan => .nan
  | .infinity _ => .infinity false
  | .finite _ units h => .finite false units h

/-- A whole number with the given sign and magnitude. -/
def signed (negative : Bool) (magnitude : Nat) : Int :=
  if negative then -(magnitude : Int) else magnitude

/-- The place on the number line, in units. Infinities lie just beyond every finite number; both
zeros lie at one place. Not-a-number has no place of its own. -/
def rank : Number → Int
  | .nan => 0
  | .infinity negative => signed negative magnitudeLimit
  | .finite negative units _ => signed negative units

/-- Numeric order. Not-a-number is unordered. -/
def compare? (x y : Number) : Option Ordering :=
  if x.isNaN || y.isNaN then none else some (compare x.rank y.rank)

/-- Numeric equality: both zeros are equal, and not-a-number equals nothing. -/
def equal (x y : Number) : Bool :=
  !x.isNaN && !y.isNaN && x.rank == y.rank

/-- Numeric order with every not-a-number after the other numbers and equal to each other. -/
def totalCompare (x y : Number) : Ordering :=
  match x.compare? y with
  | some order => order
  | none => compare x.isNaN y.isNaN

end Number

end Folio
