import Folio.Json.Basic
import Folio.Number.Rounding
import Folio.Value.Basic

/-!
# Documents and results

Documents enter as JSON and every number becomes a double. Results leave as JSON: a whole number
that a double holds without a gap is an integer, and a number that is not finite is null. Absence
has no JSON; it is null inside an array and leaves no entry in an object.
-/

namespace Folio

/-- The largest whole number up to which the doubles have no gap. -/
def largestExact : Nat := Nat.pow 2 53 - 1

/-- The JSON number of a double. -/
def Number.toJson (n : Number) : Json :=
  if !n.isFinite then .null
  else if n.isWhole && n.truncate.natAbs ≤ largestExact then .integer n.truncate
  else .float n

namespace Value

mutual

/-- The value of JSON data. -/
def ofJson : Json → Value
  | .null => .null
  | .bool b => .bool b
  | .integer i => .number (Number.ofInt i)
  | .float x => .number x
  | .string s => .string s
  | .array items => .array (ofJsonItems items)
  | .object entries => .object (ofJsonEntries entries)

/-- The values of the elements of a JSON array. -/
def ofJsonItems : List Json → List Value
  | [] => []
  | item :: rest => ofJson item :: ofJsonItems rest

/-- The values of the entries of a JSON object. -/
def ofJsonEntries : List (String × Json) → List (String × Value)
  | [] => []
  | (key, item) :: rest => (key, ofJson item) :: ofJsonEntries rest

end

mutual

/-- The JSON of a value; absence has none. A key that repeats keeps its first place and its last
value. -/
def toJson? : Value → Option Json
  | .absent => none
  | .null => some .null
  | .bool b => some (.bool b)
  | .number n => some n.toJson
  | .string s => some (.string s)
  | .array items => some (.array (toJsonItems items))
  | .object entries => some (.object (Entries.ofList (toJsonEntries entries)))

/-- The JSON of the elements of an array, null for an absent one. -/
def toJsonItems : List Value → List Json
  | [] => []
  | item :: rest => (toJson? item).getD .null :: toJsonItems rest

/-- The JSON of the entries of an object that are not absent. -/
def toJsonEntries : List (String × Value) → List (String × Json)
  | [] => []
  | (key, value) :: rest =>
    match toJson? value with
    | some json => (key, json) :: toJsonEntries rest
    | none => toJsonEntries rest

end

mutual

/-- The value without the absent elements and entries inside it. -/
def clean : Value → Value
  | .array items => .array (cleanItems items)
  | .object entries => .object (cleanEntries entries)
  | v => v

/-- The elements that are not absent, each cleaned. -/
def cleanItems : List Value → List Value
  | [] => []
  | item :: rest => if item.isAbsent then cleanItems rest else clean item :: cleanItems rest

/-- The entries that are not absent, each cleaned. -/
def cleanEntries : List (String × Value) → List (String × Value)
  | [] => []
  | (key, value) :: rest =>
    if value.isAbsent then cleanEntries rest else (key, clean value) :: cleanEntries rest

end

end Value

end Folio
