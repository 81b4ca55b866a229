import Folio.Value.Path

/-!
# Rows

A row is a candidate for a result: what the caller receives and the document that it comes from.
Order and paging look at the document only, which also holds the identifier of the row.
-/

namespace Folio

/-- A candidate for a result. -/
structure Row where
  /-- The document that the row comes from. -/
  source : Value
  /-- What the caller receives. -/
  projected : Value

/-- The row of a document that is handed out as it is. -/
def Row.ofSource (source : Value) : Row := ⟨source, source⟩

/-- How rows are identified. -/
structure Identifier where
  /-- The field that errors name. -/
  field : String
  /-- The identifier of a document. -/
  read : Value → Value

namespace Identifier

/-- The field that holds identifiers unless the caller says otherwise. -/
def defaultField : String := "_rid"

/-- The identifier that stands in a field of the document. -/
def ofField (field : String) : Identifier := ⟨field, fun source => source.child field⟩

/-- An identifier that the caller reads from the document. -/
def ofReader (read : Value → Value) : Identifier := ⟨defaultField, read⟩

end Identifier

end Folio
