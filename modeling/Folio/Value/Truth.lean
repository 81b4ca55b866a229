import Folio.Value.Basic

/-!
# Three-valued logic

The truth of a value is known only if the value is a boolean. Conjunction, disjunction and negation
follow Kleene: a known operand that settles the outcome wins over an unknown one.
-/

namespace Folio

/-- The outcome of a logical or comparison operator. -/
inductive Truth where
  | true
  | false
  | unknown
  deriving DecidableEq

namespace Truth

/-- The truth of a value: unknown unless it is a boolean. -/
def ofValue : Value → Truth
  | .bool Bool.true => .true
  | .bool Bool.false => .false
  | _ => .unknown

/-- The truth of a condition. -/
def ofBool (b : Bool) : Truth := if b then .true else .false

/-- The value of a truth; unknown is absent. -/
def toValue : Truth → Value
  | .true => .bool Bool.true
  | .false => .bool Bool.false
  | .unknown => .absent

/-- Whether the outcome is true. -/
def isTrue (t : Truth) : Bool := t == .true

/-- Whether the outcome is unknown. -/
def isUnknown (t : Truth) : Bool := t == .unknown

/-- Conjunction: false wins over unknown. -/
def and : Truth → Truth → Truth
  | .false, _ => .false
  | _, .false => .false
  | .true, .true => .true
  | _, _ => .unknown

/-- Disjunction: true wins over unknown. -/
def or : Truth → Truth → Truth
  | .true, _ => .true
  | _, .true => .true
  | .false, .false => .false
  | _, _ => .unknown

/-- Negation: unknown stays unknown. -/
def not : Truth → Truth
  | .true => .false
  | .false => .true
  | .unknown => .unknown

end Truth

end Folio
