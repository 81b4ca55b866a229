import Folio.Json.Basic
import Folio.Paging.Page
import Folio.Rows.Clause

/-!
# Exchange forms

How callers hand over and receive the small records of the library as JSON. A record is an object
with all its fields, unknown ones passed over, or the list of its fields in order; a name is a
string, or an object with the name as its one key and null under it.
-/

namespace Folio

namespace Json

/-- The string that the data is. -/
def string? : Json → Option String
  | .string s => some s
  | _ => none

/-- The name that the data is. -/
def name? : Json → Option String
  | .string s => some s
  | .object [(name, .null)] => some name
  | _ => none

/-- The fields of a record. -/
def fields? (names : List String) : Json → Option (List Json)
  | .object entries => names.mapM fun name => entries.lookup name
  | .array items => if items.length = names.length then some items else none
  | _ => none

end Json

namespace Direction

/-- The direction that the data names. -/
def ofJson? (j : Json) : Option Direction := j.name?.bind ofText?

/-- The name of a direction. -/
def toJson (d : Direction) : Json := .string d.text

end Direction

namespace IndexField

/-- The index field that the data describes. -/
def ofJson? (j : Json) : Option IndexField := do
  let [path, order] ← j.fields? ["path", "order"] | none
  return ⟨← path.string?, ← Direction.ofJson? order⟩

/-- The data that describes an index field. -/
def toJson (f : IndexField) : Json := .object [("path", .string f.path), ("order", f.order.toJson)]

end IndexField

/-- A parameter of a query as its caller hands it over. -/
structure Parameter where
  name : String
  value : Json

namespace Parameter

/-- The parameter that the data describes. -/
def ofJson? (j : Json) : Option Parameter := do
  let [name, value] ← j.fields? ["name", "value"] | none
  return ⟨← name.string?, value⟩

/-- The data that describes a parameter. -/
def toJson (p : Parameter) : Json := .object [("name", .string p.name), ("value", p.value)]

end Parameter

namespace ScanRange

/-- The range that the data describes. -/
def ofJson? (j : Json) : Option ScanRange := do
  let [min, max] ← j.fields? ["min", "max"] | none
  return ⟨← min.string?, ← max.string?⟩

/-- The data that describes a range. -/
def toJson (r : ScanRange) : Json := .object [("min", .string r.min), ("max", .string r.max)]

end ScanRange

namespace Continuation

/-- The continuation that the data describes. -/
def ofJson? (j : Json) : Option Continuation := do
  let [token, range] ← j.fields? ["token", "range"] | none
  return ⟨← token.string?, ← ScanRange.ofJson? range⟩

/-- The data that describes a continuation. -/
def toJson (c : Continuation) : Json :=
  .object [("token", .string c.token), ("range", c.range.toJson)]

end Continuation

/-- The token of the page before, as a caller hands it over. -/
structure PageToken where
  token : String

namespace PageToken

/-- The token that the data describes. -/
def ofJson? (j : Json) : Option PageToken := do
  let [token] ← j.fields? ["token"] | none
  return ⟨← token.string?⟩

/-- The data that describes a token. -/
def toJson (t : PageToken) : Json := .object [("token", .string t.token)]

end PageToken

end Folio
