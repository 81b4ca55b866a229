import Folio.Value.Basic
import Folio.Number.Word

/-!
# Arithmetic on values

Numeric operators act on numbers and concatenation on strings. On anything else the result is
absent, so data never makes an operator fail.
-/

namespace Folio

/-- The binary numeric operators. -/
inductive Arithmetic where
  | add
  | subtract
  | multiply
  | divide
  | remainder
  | bitOr
  | bitAnd
  | bitXor
  | shiftLeft
  | shiftRight
  | shiftRightZeroFill
  deriving DecidableEq

namespace Arithmetic

/-- The operator as it is written. -/
def text : Arithmetic → String
  | .add => "+"
  | .subtract => "-"
  | .multiply => "*"
  | .divide => "/"
  | .remainder => "%"
  | .bitOr => "|"
  | .bitAnd => "&"
  | .bitXor => "^"
  | .shiftLeft => "<<"
  | .shiftRight => ">>"
  | .shiftRightZeroFill => ">>>"

/-- All binary numeric operators. -/
def all : List Arithmetic :=
  [.add, .subtract, .multiply, .divide, .remainder, .bitOr, .bitAnd, .bitXor, .shiftLeft,
    .shiftRight, .shiftRightZeroFill]

/-- The binary numeric operator written so. -/
def ofText? (s : String) : Option Arithmetic := all.find? fun op => op.text == s

/-- The result on two numbers. -/
def apply : Arithmetic → Number → Number → Number
  | .add => Number.add
  | .subtract => Number.sub
  | .multiply => Number.mul
  | .divide => Number.div
  | .remainder => Number.rem
  | .bitOr => Number.bitOr
  | .bitAnd => Number.bitAnd
  | .bitXor => Number.bitXor
  | .shiftLeft => Number.shiftLeft
  | .shiftRight => Number.shiftRight
  | .shiftRightZeroFill => Number.shiftRightZeroFill

end Arithmetic

/-- The unary numeric operators. -/
inductive Sign where
  | plus
  | minus
  | complement
  deriving DecidableEq

namespace Sign

/-- The operator as it is written. -/
def text : Sign → String
  | .plus => "+"
  | .minus => "-"
  | .complement => "~"

/-- All unary numeric operators. -/
def all : List Sign := [.plus, .minus, .complement]

/-- The unary numeric operator written so. -/
def ofText? (s : String) : Option Sign := all.find? fun op => op.text == s

/-- The result on a number. -/
def apply : Sign → Number → Number
  | .plus, n => n
  | .minus, n => n.neg
  | .complement, n => n.bitNot

end Sign

namespace Value

/-- A binary numeric operator on values. -/
def arithmetic (op : Arithmetic) : Value → Value → Value
  | .number x, .number y => .number (op.apply x y)
  | _, _ => .absent

/-- A unary numeric operator on a value. -/
def signed (op : Sign) : Value → Value
  | .number n => .number (op.apply n)
  | _ => .absent

/-- Concatenation of strings. -/
def concat : Value → Value → Value
  | .string x, .string y => .string (x ++ y)
  | _, _ => .absent

end Value

end Folio
