import Folio.Json.Basic
import Folio.Json.Escape
import Folio.Number.Numeral

/-!
# JSON texts

The compact text of JSON data: no blanks, entries in their order.
-/

namespace Folio.Json

/-- Texts in a row with commas between them. -/
def separated (parts : List (List Char)) : List Char := [','].intercalate parts

/-- The text of an integer. -/
def integerChars (i : Int) : List Char :=
  if i < 0 then '-' :: Decimal.digitChars i.natAbs else Decimal.digitChars i.natAbs

mutual

/-- The text of JSON data, in characters. -/
def chars : Json → List Char
  | .null => "null".toList
  | .bool b => (if b then "true" else "false").toList
  | .integer i => integerChars i
  | .float x => x.json.toList
  | .string s => escaping.quote s
  | .array items => '[' :: separated (itemTexts items) ++ [']']
  | .object entries => '\x7b' :: separated (entryTexts entries) ++ ['\x7d']

/-- The texts of the elements of an array. -/
def itemTexts : List Json → List (List Char)
  | [] => []
  | item :: rest => chars item :: itemTexts rest

/-- The texts of the entries of an object. -/
def entryTexts : List (String × Json) → List (List Char)
  | [] => []
  | (key, item) :: rest => (escaping.quote key ++ ':' :: chars item) :: entryTexts rest

end

/-- The text of JSON data. -/
def text (j : Json) : String := String.ofList (chars j)

end Folio.Json
