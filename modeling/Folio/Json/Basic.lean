import Folio.Number.Basic

/-!
# JSON

JSON data as documents hold it and as results are handed out. Integers and floats are told apart,
and an object keeps the order of its entries.
-/

namespace Folio

/-- JSON data. -/
inductive Json where
  | null
  | bool (b : Bool)
  | integer (i : Int)
  | float (x : Number)
  | string (s : String)
  | array (items : List Json)
  | object (entries : List (String × Json))
  deriving Inhabited

end Folio
