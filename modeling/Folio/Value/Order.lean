import Folio.Value.Comparison
import Folio.Number.Numeral

/-!
# The order of all values

Sorting compares any two values. Kinds come first; objects tie; arrays compare by the text of their
elements joined with commas; not-a-number follows the other numbers.
-/

namespace Folio.Value

mutual

/-- The text of a value inside a joined array. -/
def joinedText : Value → String
  | .absent => ""
  | .null => ""
  | .bool b => if b then "true" else "false"
  | .number n => n.label
  | .string s => s
  | .array items => ",".intercalate (joinedTexts items)
  | .object _ => "[object Object]"

/-- The texts of the elements of an array. -/
def joinedTexts : List Value → List String
  | [] => []
  | item :: rest => joinedText item :: joinedTexts rest

end

/-- The order of two values of one kind. -/
def compareWithin : Value → Value → Ordering
  | .bool x, .bool y => compare x y
  | .number x, .number y => x.totalCompare y
  | .string x, .string y => Text.compareUnits x y
  | .array xs, .array ys => Text.compareUnits (joinedText (.array xs)) (joinedText (.array ys))
  | _, _ => .eq

/-- The order of any two values. -/
def totalCompare (a b : Value) : Ordering :=
  (compare a.kind.rank b.kind.rank).then (compareWithin a b)

end Folio.Value
