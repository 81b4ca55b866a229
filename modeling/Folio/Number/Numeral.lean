import Folio.Number.Decimal

/-!
# Number texts

The three ways in which a double is written: plainly, as a key or in a message; with scientific
notation at the extremes, where arrays are compared by their joined text; and as JSON, where a
number is always told apart from an integer. All write the fewest digits that read back.
-/

namespace Folio

namespace Decimal

/-- A row of zeros. -/
def zeros (n : Int) : List Char := List.replicate n.toNat '0'

/-- Positional notation. A whole number is followed by `whole`. -/
def positional (d : Decimal) (whole : List Char) : List Char :=
  let digits := digitChars d.digits
  let place := d.pointPlace
  if place ≤ 0 then '0' :: '.' :: zeros (-place) ++ digits
  else if 0 ≤ d.exponent then digits ++ zeros d.exponent ++ whole
  else digits.take place.toNat ++ '.' :: digits.drop place.toNat

/-- Scientific notation: one digit before the point, and a sign on every exponent. -/
def scientific (d : Decimal) : List Char :=
  let exponent := d.pointPlace - 1
  let mantissa :=
    match digitChars d.digits with
    | first :: second :: rest => first :: '.' :: second :: rest
    | digits => digits
  mantissa ++ 'e' :: (if exponent < 0 then '-' else '+') :: digitChars exponent.natAbs

end Decimal

namespace Number

/-- A text after a minus sign if there is one. -/
def withSign (negative : Bool) (text : List Char) : String :=
  String.ofList (if negative then '-' :: text else text)

/-- The plain text: always positional, a whole number without a point. -/
def plain : Number → String
  | .nan => "NaN"
  | .infinity negative => withSign negative ['i', 'n', 'f']
  | .finite negative units _ =>
    withSign negative (if units = 0 then ['0'] else (shortest .up units).positional [])

/-- The least magnitude whose label is positional: the double nearest to a millionth. -/
def leastPositional : Nat := nearest unitsPerOne (Nat.pow 10 6)

/-- The text of an element of a joined array: zero has no sign, and numbers from `10 ^ 21` up or
below a millionth are scientific. -/
def label : Number → String
  | .nan => "NaN"
  | .infinity negative => if negative then "-Infinity" else "Infinity"
  | .finite negative units _ =>
    if units = 0 then "0"
    else if units < leastPositional ∨ Nat.pow 10 21 * unitsPerOne ≤ units then
      withSign negative (shortest .up units).scientific
    else withSign negative ((shortest .up units).positional [])

/-- The JSON text: positional with a fraction from `10 ^ (-5)` up to but not including `10 ^ 16`,
else scientific. What is not finite is null. -/
def json : Number → String
  | .finite negative units _ =>
    if units = 0 then withSign negative ['0', '.', '0']
    else
      let d := shortest .toEven units
      withSign negative
        (if -5 < d.pointPlace ∧ d.pointPlace ≤ 16 then d.positional ['.', '0'] else d.scientific)
  | _ => "null"

end Number

end Folio
