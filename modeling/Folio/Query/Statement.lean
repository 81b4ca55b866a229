import Folio.Expr.Basic
import Folio.Rows.Clause

/-!
# Statements

A parsed query: what to select, from where, under which filter and in which order.
-/

namespace Folio

/-- One entry of a SELECT list. -/
structure SelectItem where
  expr : Expr
  /-- The name that the query gives the item. -/
  given : Option String

/-- What a query returns per row. -/
inductive Selection where
  /-- The document itself. -/
  | all
  | value (e : Expr)
  | items (items : List SelectItem)

/-- One entry of an ORDER BY list. -/
structure OrderItem where
  expr : Expr
  direction : Direction

/-- A parsed query. -/
structure Statement where
  top : Option Nat
  selection : Selection
  collection : String
  /-- The name that the query gives the collection. -/
  given : Option String
  filter : Option Expr
  order : List OrderItem

namespace Statement

/-- The name by which expressions refer to the current document. -/
def binding (s : Statement) : String := s.given.getD s.collection

end Statement

end Folio
