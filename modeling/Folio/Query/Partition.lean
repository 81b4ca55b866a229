import Folio.Expr.Path
import Folio.Query.Statement

/-!
# Partition keys

A filter pins a path if every document that passes has one of finitely many values at the path, each
read off the filter: the path is compared for equality with a literal or a parameter, in one part of
a conjunction or in both parts of a disjunction.
-/

namespace Folio

namespace Expr

/-- Whether the expression is a literal or a parameter. -/
def isConstant : Expr → Bool
  | .literal _ => true
  | .parameter _ => true
  | _ => false

/-- Whether the expression is the proper path with these keys below the document. -/
def isPathOf (binding : String) (keys : List String) (e : Expr) : Bool :=
  match e.path? with
  | some (root, path) => root == binding && !path.isEmpty && path == keys
  | none => false

/-- Whether the expression pins the path with these keys. -/
def pins (binding : String) (keys : List String) : Expr → Bool
  | .binary .and left right => pins binding keys left || pins binding keys right
  | .binary .or left right => pins binding keys left && pins binding keys right
  | .binary .equal left right =>
    (left.isPathOf binding keys && right.isConstant) ||
      (right.isPathOf binding keys && left.isConstant)
  | _ => false

end Expr

/-- The keys of a path written with slashes. -/
def slashedKeys (path : String) : List String :=
  ((path.toList.splitOn '/').filter fun segment => !segment.isEmpty).map String.ofList

/-- Whether the filter pins every path, each written with slashes. -/
def Statement.pinsAll (s : Statement) (paths : List String) : Bool :=
  paths.all fun path => s.filter.any fun filter => filter.pins s.binding (slashedKeys path)

end Folio
