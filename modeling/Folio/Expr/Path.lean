import Folio.Expr.Basic
import Folio.Value.Path

/-!
# Property paths

A chain of property accesses with literal keys on an identifier is a path: the identifier at its
root and the list of its keys.
-/

namespace Folio.Expr

/-- The key that a literal stands for. -/
def literalKey? : Expr → Option String
  | .literal (.string s) => some s
  | .literal (.number n) => some (numberKey n)
  | _ => none

/-- The root and the keys of an expression that is a property path. -/
def path? : Expr → Option (String × List String)
  | .identifier name => some (name, [])
  | .property base key =>
    match path? base, literalKey? key with
    | some (root, keys), some k => some (root, keys ++ [k])
    | _, _ => none
  | _ => none

end Folio.Expr
