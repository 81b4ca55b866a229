/-!
# Order clauses and composite indexes

Rows are ordered by clauses: paths below the document with a direction each. A composite index
declares fields in their written form, and serves a list of clauses if it has exactly their
paths and directions in their order.
-/

namespace Folio

/-- The direction of a sort key. -/
inductive Direction where
  | ascending
  | descending
  deriving DecidableEq

/-- The name of a direction. -/
def Direction.text : Direction → String
  | .ascending => "ascending"
  | .descending => "descending"

/-- The direction with the name. -/
def Direction.ofText? (s : String) : Option Direction :=
  [Direction.ascending, .descending].find? fun d => d.text == s

/-- One sort key: the path of keys from the document and the direction. -/
structure OrderClause where
  path : List String
  direction : Direction
  deriving DecidableEq

/-- The keys of a path written with dots. -/
def dottedKeys (dotted : String) : List String :=
  (dotted.toList.splitOn '.').map String.ofList

/-- One field of a composite index: a path with slashes, such as `/a/b`, and a direction. -/
structure IndexField where
  path : String
  order : Direction
  deriving DecidableEq

namespace OrderClause

/-- The clause on a path written with dots. -/
def ofDotted (dotted : String) (direction : Direction) : OrderClause :=
  ⟨dottedKeys dotted, direction⟩

/-- The path of the clause as index declarations write it. -/
def indexPath (clause : OrderClause) : String := "/" ++ "/".intercalate clause.path

/-- The index field that serves the clause. -/
def indexField (clause : OrderClause) : IndexField := ⟨clause.indexPath, clause.direction⟩

/-- Whether some index serves the clauses. -/
def servedBy (clauses : List OrderClause) (indexes : List (List IndexField)) : Bool :=
  indexes.any fun index => index == clauses.map indexField

end OrderClause

end Folio
