import Folio.Expr.Evaluation
import Folio.Paging.Page
import Folio.Query.Procedure

/-!
# Running a procedure

A collection of documents is filtered and projected, sorted, cut to the first rows and paged, in
this order. A document passes the filter only if the filter is true of it.
-/

namespace Folio

/-- What a caller asks of a query. -/
structure Request where
  /-- The parameters by name; of equal names the first counts. -/
  parameters : List (String × Json)
  functions : UserFunctions
  pageSize : Option Int
  /-- The token of the page before. -/
  token : Option String
  /-- The composite indexes, if they are known. -/
  indexes : Option (List (List IndexField))

/-- The request for everything. -/
def Request.plain : Request := ⟨[], .empty, none, none, none⟩

/-- The scope in which a request evaluates expressions on a document. -/
def Request.scope (request : Request) (document : Value) : Scope :=
  ⟨document, request.parameters.map fun (name, value) => (name, Value.ofJson value),
    request.functions⟩

/-- What a page was made from. -/
structure Outcome where
  page : Page
  /-- The number of documents in the collection. -/
  scanned : Nat
  /-- The number of rows after the cut to the first ones. -/
  matched : Nat

namespace Outcome

/-- The number of results on the page. -/
def returned (o : Outcome) : Nat := o.page.results.length

/-- Whether rows follow the page. -/
def hasMore (o : Outcome) : Bool := o.page.next.isSome

end Outcome

/-- What a document is turned into. -/
def Projection.apply (scope : Scope) : Projection → Except QueryError Value
  | .document => .ok scope.document
  | .value e => e.eval scope
  | .fields named => do
    let entries ← Expr.evalEntries scope named
    return .object entries

namespace Procedure

/-- Whether a document passes the filter. -/
def keeps (p : Procedure) (scope : Scope) : Except QueryError Bool :=
  match p.filter with
  | some filter => filter.test scope
  | none => .ok true

/-- The row of a document that passes the filter. -/
def row? (p : Procedure) (request : Request) (document : Json) :
    Except QueryError (Option Row) := do
  let scope := request.scope (Value.ofJson document)
  if ← p.keeps scope then
    let projected ← p.projection.apply scope
    return some ⟨scope.document, projected⟩
  else return none

/-- The rows of the documents that pass the filter. -/
def rows (p : Procedure) (request : Request) (collection : List Json) :
    Except QueryError (List Row) := do
  let found ← collection.mapM fun document => p.row? request document
  return found.reduceOption

/-- The rows up to the greatest number that the query asks for. -/
def firstRows (p : Procedure) (rows : List Row) : List Row :=
  match p.top with
  | some count => rows.take count
  | none => rows

/-- The page of a collection that a request asks for. -/
def run (p : Procedure) (identifier : Identifier) (collection : List Json) (request : Request) :
    Except QueryError Outcome := do
  let found ← p.rows request collection
  let sorted ← sortRows identifier p.order request.indexes found
  let first := p.firstRows sorted
  let paging : Paging := ⟨identifier, p.order⟩
  let page ← paging.paginate first request.pageSize request.token
  return ⟨page, collection.length, first.length⟩

end Procedure

end Folio
