import Folio.Expr.Path
import Folio.Expr.Resolution
import Folio.Query.Statement

/-!
# Procedures

A procedure is a statement made ready to run: names are resolved, selected fields have their names
and the order consists of clauses. Making one ready checks the selection first, then the filter,
then the order.
-/

namespace Folio

/-- What a row is turned into. -/
inductive Projection where
  /-- The document itself. -/
  | document
  | value (e : Expr)
  /-- An object with a named field per expression. -/
  | fields (fields : List (String × Expr))

/-- A query that is ready to run. -/
structure Procedure where
  /-- The name by which expressions refer to the document. -/
  binding : String
  top : Option Nat
  projection : Projection
  filter : Option Expr
  order : List OrderClause

namespace SelectItem

/-- The name that an item has of itself: the one it is given, or the last one on its path. -/
def ownName? (item : SelectItem) : Option String :=
  match item.given, item.expr.path? with
  | some name, _ => some name
  | none, some (root, keys) => some (keys.getLast?.getD root)
  | none, none => none

/-- Items with the names of their fields; those without one of their own are numbered from a count
of earlier ones. -/
def named (unnamed : Nat) : List SelectItem → List (String × Expr)
  | [] => []
  | item :: rest =>
    match item.ownName? with
    | some name => (name, item.expr) :: named unnamed rest
    | none => ("$" ++ toString (unnamed + 1), item.expr) :: named (unnamed + 1) rest

end SelectItem

/-- The projection of a selection whose names resolve. -/
def Selection.project (binding : String) : Selection → Except QueryError Projection
  | .all => .ok .document
  | .value e => do
    e.resolveNames binding
    return .value e
  | .items selected => do
    selected.forM fun item => item.expr.resolveNames binding
    return .fields (SelectItem.named 0 selected)

/-- The clause of an order item: a proper path below the document. -/
def OrderItem.clause (binding : String) (item : OrderItem) : Except QueryError OrderClause :=
  match item.expr.path? with
  | some (root, key :: keys) =>
    if root = binding then .ok ⟨key :: keys, item.direction⟩
    else .error (.unresolvedIdentifier root)
  | _ => .error .orderNotPath

/-- The procedure of a statement. -/
def Statement.compile (s : Statement) : Except QueryError Procedure := do
  let projection ← s.selection.project s.binding
  s.filter.forM fun filter => filter.resolveNames s.binding
  let order ← s.order.mapM fun item => item.clause s.binding
  return ⟨s.binding, s.top, projection, s.filter, order⟩

end Folio
