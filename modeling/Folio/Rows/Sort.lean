import Folio.Error
import Folio.Rows.Basic
import Folio.Rows.Clause
import Folio.Value.Order

/-!
# Sorted rows

Rows are ordered by the clauses one after another and, where all keys tie, by their identifiers.
Rows that tie in everything keep their places. An order by one clause leaves out the rows whose key
is absent; an order by several keeps all, and needs an index if the indexes are known.
-/

namespace Folio

/-- An order of values in a direction. -/
def Direction.apply : Direction → Ordering → Ordering
  | .ascending, order => order
  | .descending, order => order.swap

namespace OrderClause

/-- The sort key of a document under a clause. -/
def key (clause : OrderClause) (source : Value) : Value := source.resolve clause.path

/-- The sort keys of a document. -/
def keys (clauses : List OrderClause) (source : Value) : List Value :=
  clauses.map fun clause => clause.key source

/-- The order of two lists of sort keys: the first clause that tells them apart decides. -/
def compareKeys : List OrderClause → List Value → List Value → Ordering
  | clause :: clauses, a :: as, b :: bs =>
    (clause.direction.apply (a.totalCompare b)).then (compareKeys clauses as bs)
  | _, _, _ => .eq

/-- Whether the order by these clauses can be served. A single clause always can, and without known
indexes nothing is refused. -/
def servable (clauses : List OrderClause) (indexes : Option (List (List IndexField))) : Bool :=
  clauses.length ≤ 1 || indexes.all (servedBy clauses)

end OrderClause

namespace Row

/-- The order of two rows: by their sort keys, then by their identifiers. -/
def compare (identifier : Identifier) (clauses : List OrderClause) (a b : Row) : Ordering :=
  (OrderClause.compareKeys clauses (OrderClause.keys clauses a.source)
    (OrderClause.keys clauses b.source)).then
    ((identifier.read a.source).totalCompare (identifier.read b.source))

/-- Whether a row stays in the order by these clauses. -/
def isOrdered (clauses : List OrderClause) (row : Row) : Bool :=
  match clauses with
  | [clause] => !(clause.key row.source).isAbsent
  | _ => true

end Row

/-- The rows in order. -/
def sortRows (identifier : Identifier) (clauses : List OrderClause)
    (indexes : Option (List (List IndexField))) (rows : List Row) : Except QueryError (List Row) :=
  if OrderClause.servable clauses indexes then
    .ok ((rows.mergeSort fun a b => (a.compare identifier clauses b).isLE).filter
      (Row.isOrdered clauses))
  else .error .missingIndex

end Folio
