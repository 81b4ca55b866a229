import Folio.Value.Basic
import Folio.Number.Numeral

/-!
# Paths into values

A path is a list of keys. A key leads into an object by its entry and into an array by the
canonical decimal numeral of a position. A path that leads nowhere ends in absence.
-/

namespace Folio

/-- The largest position of an array element that a key can name. -/
def positionLimit : Nat := UInt64.size

/-- The position that a key names: the key is the canonical decimal numeral of it. -/
def arrayPosition? (key : String) : Option Nat :=
  let digits := key.toList
  if digits.all Char.isDigit && digits != [] then
    let position := digits.foldl (fun n c => 10 * n + (c.toNat - '0'.toNat)) 0
    if position < positionLimit && Decimal.digitChars position == digits then some position
    else none
  else none

/-- The key that a number stands for: a whole number of at most 21 digits as the nearest signed
64-bit integer, any other number in plain decimals. -/
def numberKey (n : Number) : String :=
  if n.isWhole && n.truncate.natAbs < Nat.pow 10 21 then
    toString (max Int64.minValue.toInt (min Int64.maxValue.toInt n.truncate))
  else n.plain

namespace Value

/-- The value that one key leads to. -/
def child? (key : String) : Value → Option Value
  | .object entries => entries.lookup key
  | .array items => (arrayPosition? key).bind fun position => items[position]?
  | _ => none

/-- The value that one key leads to, absent if there is none. -/
def child (key : String) (v : Value) : Value := (v.child? key).getD .absent

/-- The value that a path leads to. -/
def resolve (v : Value) : List String → Value
  | [] => v
  | key :: path =>
    match v.child? key with
    | some next => resolve next path
    | none => .absent

end Value

end Folio
